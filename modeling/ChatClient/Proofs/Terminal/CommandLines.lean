import ChatClient.Proofs.Text.Trimming
import ChatClient.Terminal.Command
import Mathlib.Tactic.Common

/-!
# Commands and the lines that ask for them

Whoever knows what is to be done can write it down as a line: a slash, the name of the command and
what belongs to it, or a message as it stands, with one more slash if it starts with one. The
terminal then reads the same command, provided that it is one that any line asks for. That a text
was trimmed and an identifier cut off at a blank shows in it: a text has no blanks at its ends, and
an identifier has none at all.

Both ends of this rest on one notion of a blank, by which lines are trimmed as well as cut.

## Main definitions

* `Command.print`: the line that asks for a command
* `Command.Neat`: the texts of a command are trimmed where they have to be

## Main results

* `neat_of_parse`: a line only ever asks for neat commands
* `parse_print`: a neat command is read from the line that is written for it
* `parse_roundTrips`: both together, and that blanks around a line make no difference
-/

namespace ChatClient.Command

open Text

/-- The line that asks for a command. -/
def print : Command → String
  | .say body => if body.toList.head? = some '/' then "/" ++ body else body
  | .file url => "/file " ++ url
  | .reply id body => "/reply " ++ id.text ++ " " ++ body
  | .room roomId => "/room " ++ roomId.text
  | .typing => "/typing"
  | .help => "/help"
  | .quit => "/quit"

/-- The texts of a command are trimmed, and where the command needs one it is there. An identifier
in front of another text has no blank. -/
def Neat : Command → Prop
  | .say body => trim body = body
  | .file url => url ≠ "" ∧ trim url = url
  | .reply id body => (∀ c ∈ id.text.toList, isBlank c = false) ∧ body ≠ "" ∧ trim body = body
  | .room roomId => roomId.text ≠ "" ∧ trim roomId.text = roomId.text
  | .typing | .help | .quit => True

/-! ## What is read -/

section Reading

variable {line : String} {rest : List Char}

private theorem parse_escaped (escaped : trimChars line.toList = '/' :: '/' :: rest) :
    parse line = .ok (.say (String.ofList ('/' :: rest))) := by
  rw [parse, escaped]
  rfl

private theorem parse_slash (slash : trimChars line.toList = '/' :: rest)
    (single : rest.head? ≠ some '/') :
    parse line = ofWords (words rest).1 (words rest).2 := by
  rw [parse, slash]
  split
  · next same =>
    obtain rfl := (List.cons.inj same).2
    simp at single
  · next same =>
    obtain rfl := (List.cons.inj same).2
    rfl
  · next other => exact absurd rfl (other rest)

private theorem parse_plain (plain : (trimChars line.toList).head? ≠ some '/') :
    parse line = .ok (.say (trim line)) := by
  rw [parse]
  split
  · next same => simp [same] at plain
  · next same => simp [same] at plain
  · rfl

/-- A text is escaped, or it starts a command, or it stands as it is. -/
theorem slashes (cs : List Char) : (∃ rest, cs = '/' :: '/' :: rest) ∨
    (∃ rest, cs = '/' :: rest ∧ rest.head? ≠ some '/') ∨ cs.head? ≠ some '/' := by
  by_cases slash : cs.head? = some '/'
  · obtain ⟨rest, rfl⟩ := List.head?_eq_some_iff.1 slash
    by_cases escaped : rest.head? = some '/'
    · obtain ⟨rest, rfl⟩ := List.head?_eq_some_iff.1 escaped
      exact .inl ⟨rest, rfl⟩
    · exact .inr (.inl ⟨rest, rfl, escaped⟩)
  · exact .inr (.inr slash)

end Reading

/-! ## What lines ask for -/

/-- What belongs to a command is trimmed. -/
theorem trimmed_words (cs : List Char) : Trimmed (words cs).2 := by
  rw [words]
  split
  · exact trimmed_nil
  · exact trimmed_trimChars _

private theorem trim_ofList {cs : List Char} (trimmed : Trimmed cs) :
    trim (String.ofList cs) = String.ofList cs := by
  rw [trim_eq_self_iff, String.toList_ofList]
  exact trimmed

private theorem ofList_ne_empty {cs : List Char} (some_ : cs ≠ []) : String.ofList cs ≠ "" := by
  intro empty
  exact some_ (String.ofList_injective empty)

private theorem neat_of_ofWords {name : String} {rest : List Char} {c : Command}
    (trimmed : Trimmed rest) (asks : ofWords name rest = .ok c) : c.Neat := by
  unfold ofWords at asks
  split at asks
  · -- A file: its place must not be missing.
    split at asks
    · contradiction
    · next some_ =>
      obtain rfl := Except.ok.inj asks
      exact ⟨ofList_ne_empty (by simpa using some_), trim_ofList trimmed⟩
  · -- A reply: all is cut once more, and its end is what was the end before.
    split at asks
    · contradiction
    · next id body cut =>
      split at asks
      · contradiction
      · next ident named =>
        obtain rfl := Except.ok.inj asks
        obtain ⟨-, some_⟩ := trimmed.split cut
        refine ⟨?_, ofList_ne_empty some_, trim_ofList (trimmed_trimChars body)⟩
        rw [Ident.ofText?_eq_some_iff.1 named, String.toList_ofList]
        exact (splitAtBlank?_eq_some cut).1
  · -- A room: its name is all of the rest.
    split at asks
    · contradiction
    · next roomId named =>
      obtain rfl := Except.ok.inj asks
      have text : roomId.text = String.ofList rest := Ident.ofText?_eq_some_iff.1 named
      exact ⟨roomId.text_ne_empty, by rw [text, trim_ofList trimmed]⟩
  · obtain rfl := Except.ok.inj asks
    exact True.intro
  · obtain rfl := Except.ok.inj asks
    exact True.intro
  · obtain rfl := Except.ok.inj asks
    exact True.intro
  · obtain rfl := Except.ok.inj asks
    exact True.intro
  · contradiction

/-- A line only ever asks for neat commands. -/
theorem neat_of_parse {line : String} {c : Command} (asks : parse line = .ok c) : c.Neat := by
  have trimmed := trimmed_trimChars line.toList
  rcases slashes (trimChars line.toList) with ⟨rest, escaped⟩ | ⟨rest, slash, single⟩ | plain
  · rw [parse_escaped escaped] at asks
    obtain rfl := Except.ok.inj asks
    rw [escaped] at trimmed
    -- The second slash is at the front now, and the end is the same.
    have shorter : Trimmed ('/' :: rest) := ⟨by simp [isBlank], by simpa using trimmed.last⟩
    exact trim_ofList shorter
  · rw [parse_slash slash single] at asks
    exact neat_of_ofWords (trimmed_words rest) asks
  · rw [parse_plain plain] at asks
    obtain rfl := Except.ok.inj asks
    exact trim_ofList trimmed

/-! ## What is written -/

/-- A name in front of a text is read as the name of a command with that text. -/
theorem parse_named (name line : String) {rest : List Char}
    (ink : ∀ c ∈ name.toList, isBlank c = false) (single : name.toList.head? ≠ some '/')
    (trimmed : Trimmed rest) (some_ : rest ≠ [])
    (written : line.toList = '/' :: name.toList ++ [' '] ++ rest) :
    parse line = ofWords name rest := by
  have front : Trimmed ('/' :: name.toList) :=
    trimmed_of_ink (List.forall_mem_cons.2 ⟨by decide, ink⟩)
  have whole : trimChars line.toList = '/' :: (name.toList ++ ' ' :: rest) := by
    rw [written, (front.around trimmed (by simp) some_ [' ']).trimChars_eq]
    simp
  have cut : words (name.toList ++ ' ' :: rest) = (name, rest) := by
    rw [words, splitAtBlank?_append ink (by decide)]
    simp [trimmed.trimChars_eq]
  have single' : (name.toList ++ ' ' :: rest).head? ≠ some '/' := by
    cases chars : name.toList with
    | nil => simp
    | cons c cs => simpa [chars] using single
  rw [parse_slash whole single', cut]

private theorem toList_ne_nil {s : String} (some_ : s ≠ "") : s.toList ≠ [] := by
  simpa using some_

/-- A neat command is read from the line that is written for it. -/
theorem parse_print {c : Command} (neat : c.Neat) : parse c.print = .ok c := by
  cases c with
  | say body =>
    have trimmed : Trimmed body.toList := trim_eq_self_iff.1 neat
    rw [print]
    split
    · next slash =>
      obtain ⟨rest, chars⟩ := List.head?_eq_some_iff.1 slash
      have front : Trimmed ['/'] := trimmed_of_ink (by simp [isBlank])
      have whole : trimChars ("/" ++ body).toList = '/' :: '/' :: rest := by
        have written : ("/" ++ body).toList = ['/'] ++ [] ++ body.toList := by simp
        rw [written, (front.around trimmed (by simp) (by simp [chars]) []).trimChars_eq, chars]
        rfl
      rw [parse_escaped whole, ← chars, String.ofList_toList]
    · next plain => rw [parse_plain (by rwa [trimmed.trimChars_eq]), neat]
  | file url =>
    obtain ⟨some_, neat⟩ := neat
    have asks := parse_named "file" ("/file " ++ url) (by simp [isBlank]) (by decide)
      (trim_eq_self_iff.1 neat) (toList_ne_nil some_) (by simp)
    rw [print, asks]
    simp [ofWords, some_]
  | reply id body =>
    obtain ⟨ink, some_, neat⟩ := neat
    have trimmed : Trimmed body.toList := trim_eq_self_iff.1 neat
    -- The identifier guards the left end, and the text guards the right one.
    have rest : Trimmed (id.text.toList ++ ' ' :: body.toList) := by
      have between := (trimmed_of_ink ink).around trimmed (toList_ne_nil id.text_ne_empty)
        (toList_ne_nil some_) [' ']
      simpa using between
    have asks :=
      parse_named "reply" ("/reply " ++ id.text ++ " " ++ body) (by simp [isBlank]) (by decide)
      rest (by simp) (by simp)
    have cut :
        splitAtBlank? (id.text.toList ++ ' ' :: body.toList) = some (id.text.toList, body.toList) :=
      splitAtBlank?_append ink (by decide)
    rw [print, asks]
    simp [ofWords, cut, trimmed.trimChars_eq]
  | room roomId =>
    obtain ⟨some_, neat⟩ := neat
    have asks := parse_named "room" ("/room " ++ roomId.text) (by simp [isBlank]) (by decide)
      (trim_eq_self_iff.1 neat) (toList_ne_nil some_) (by simp)
    rw [print, asks]
    simp [ofWords]
  | typing => rfl
  | help => rfl
  | quit => rfl

/-- Whatever is typed: the command that is read is read again from the line that is written for it,
and its texts are trimmed. A command that is neat in this way, such as any trimmed message, however
many slashes it starts with, is read from the line that is written for it, and no other command is.
Blanks around a line make no difference. -/
theorem parse_roundTrips :
    (∀ line c, parse line = .ok c → c.Neat ∧ parse c.print = .ok c) ∧
      (∀ c : Command, parse c.print = .ok c ↔ c.Neat) ∧
      ∀ before line after : String, (∀ c ∈ before.toList, isBlank c = true) →
        (∀ c ∈ after.toList, isBlank c = true) → parse (before ++ line ++ after) = parse line := by
  refine ⟨?_, ?_, ?_⟩
  · intro line c asks
    have neat := neat_of_parse asks
    exact ⟨neat, parse_print neat⟩
  · intro c
    exact ⟨neat_of_parse, parse_print⟩
  · intro before line after blank blank'
    have same : trimChars (before ++ line ++ after).toList = trimChars line.toList := by
      rw [String.toList_append, String.toList_append, trimChars_append blank blank']
    rw [parse, same, parse]

end ChatClient.Command

namespace ChatClient

/-! ### A detour

The user knows neither that one slash is enough nor that blanks are needless. -/

namespace Detour

def retort : Command := .reply ⟨"42", by decide⟩ "//who?  me?"

end Detour

theorem parse_roundTrips_detour :
    Command.parse "\u3000 /reply\t42 \u2003 //who?  me?\n" = .ok Detour.retort ∧
      Detour.retort.Neat ∧
      Detour.retort.print = "/reply 42 //who?  me?" ∧
      Command.parse Detour.retort.print = .ok Detour.retort ∧
      (Command.say "//who?").Neat ∧
      Command.parse (Command.say "//who?").print = .ok (.say "//who?") ∧
      (∀ c ∈ "\u2003".toList, Text.isBlank c = true) ∧ (∀ c ∈ "\n".toList, Text.isBlank c = true) ∧
      Command.parse ("\u2003" ++ "/me" ++ "\n") = Command.parse "/me" := by
  have asks : Command.parse "\u3000 /reply\t42 \u2003 //who?  me?\n" = .ok Detour.retort := by
    decide
  have neat : (Command.say "//who?").Neat := (by decide : Text.trim "//who?" = "//who?")
  have blank : ∀ c ∈ "\u2003".toList, Text.isBlank c = true := by simp [Text.isBlank]
  have blank' : ∀ c ∈ "\n".toList, Text.isBlank c = true := by simp [Text.isBlank]
  obtain ⟨reads, writes, ignores⟩ := Command.parse_roundTrips
  obtain ⟨neat', again⟩ := reads _ _ asks
  exact ⟨asks, neat', by decide, again, neat, (writes _).2 neat, blank, blank',
    ignores _ "/me" _ blank blank'⟩

end ChatClient
