import ChatClient.Text.Blank
import ChatClient.Text.Digit

/-!
# Identifiers

Rooms, users, messages and credentials are named by texts that must contain at least one character
that is not blank. The text is kept exactly as given, blanks at its ends included. The condition is
part of the type, so an identifier in hand is always one that may be put on the wire.

## Main definitions

* `Ident k`: an identifier of kind `k`, with the abbreviations `RoomId`, `UserId`, `MessageId` and
  `Credential`
* `Ident.ofText`: the one way from a text to an identifier, failing with `BlankIdent`
* `MessageId.isPlaceholder`, `MessageId.placeholder`: identifiers given by this client to messages
  that arrive without one
-/

namespace ChatClient

/-- What an identifier names. -/
inductive IdentKind
  | room | user | message | credential
  deriving DecidableEq, Repr

/-- The words used for the kind in a message to the user. -/
def IdentKind.label : IdentKind → String
  | .room => "room id"
  | .user => "user id"
  | .message => "message id"
  | .credential => "credential"

/-- A text that is not blank, used as the name of a thing of kind `k`. -/
structure Ident (k : IdentKind) where
  text : String
  inked : Text.hasInk text = true
  deriving DecidableEq

abbrev RoomId := Ident .room
abbrev UserId := Ident .user
abbrev MessageId := Ident .message
abbrev Credential := Ident .credential

/-- The only way in which a text fails to be an identifier: it has nothing but blanks. -/
structure BlankIdent where
  kind : IdentKind
  deriving DecidableEq, Repr

def BlankIdent.message (e : BlankIdent) : String :=
  e.kind.label ++ " must not be empty"

namespace Ident

variable {k : IdentKind}

@[ext] theorem ext {a b : Ident k} (h : a.text = b.text) : a = b := by
  cases a; cases b; cases h; rfl

theorem text_ne_empty (a : Ident k) : a.text ≠ "" := by
  intro empty
  have ink := a.inked
  rw [empty] at ink
  exact absurd ink (by decide)

/-- The identifier with the given text, kept as it is. -/
def ofText? (k : IdentKind) (s : String) : Option (Ident k) :=
  if h : Text.hasInk s = true then some ⟨s, h⟩ else none

/-- The identifier with the given text, or the reason why there is none. -/
def ofText (k : IdentKind) (s : String) : Except BlankIdent (Ident k) :=
  match ofText? k s with
  | some a => .ok a
  | none => .error ⟨k⟩

@[simp] theorem ofText?_text (a : Ident k) : ofText? k a.text = some a := by
  simp [ofText?, a.inked]

theorem ofText?_eq_some_iff {s : String} {a : Ident k} : ofText? k s = some a ↔ a.text = s := by
  constructor
  · intro h
    unfold ofText? at h
    split at h
    · simp only [Option.some.injEq] at h
      rw [← h]
    · simp at h
  · rintro rfl
    exact ofText?_text a

theorem ofText?_eq_none_iff {s : String} : ofText? k s = none ↔ Text.hasInk s = false := by
  simp [ofText?]

@[simp] theorem ofText_text (a : Ident k) : ofText k a.text = .ok a := by
  simp [ofText]

end Ident

namespace MessageId

/-- The text with which every identifier given by this client begins. -/
def placeholderMark : String := "local-"

/-- The identifier begins as those do that this client gives out itself. -/
def isPlaceholder (id : MessageId) : Bool :=
  placeholderMark.toList.isPrefixOf id.text.toList

theorem hasInk_placeholder (token : String) :
    Text.hasInk (placeholderMark ++ token) = true := by
  rw [Text.hasInk_iff]
  exact ⟨'l', by simp [placeholderMark], by decide⟩

/-- The identifier for a message that came without one, told from others by `token`. -/
def placeholder (token : String) : MessageId :=
  ⟨placeholderMark ++ token, hasInk_placeholder token⟩

@[simp] theorem isPlaceholder_placeholder (token : String) :
    isPlaceholder (placeholder token) = true := by
  simp [isPlaceholder, placeholder]

/-- The identifier given out by this client as its `n`-th one. Its token has the form of a version-4
UUID, so that no other identifier is likely to be the same; the last group tells apart the tokens of
one client. -/
def minted (n : Nat) : MessageId :=
  placeholder ("5f0c7a52-9be1-4d36-8a1f-" ++ Text.hexPadded 12 n)

end MessageId

namespace Credential

/-- What is shown of a credential in places where it must not be read. -/
def masked (_ : Credential) : String := "Credential(***)"

end Credential

end ChatClient
