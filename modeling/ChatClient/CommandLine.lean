import ChatClient.Config
import ChatClient.Ident
import ChatClient.Text.Digit

/-!
# The command line

The program is set up by options. An option that takes a value is given as `--name value` or
`--name=value`; those with a letter also as `-l value`, `-lvalue` or `-l=value`. A value that is a
word of its own must not start with a hyphen, unless it is nothing else. Nothing is abbreviated,
nothing is given twice, and every word belongs to an option. The words are read from left to right,
and the wish for help counts as soon as it is met.

## Main definitions

* `Switch`, `Arguments`
* `Arguments.parse`: what the words of a command line say
* `Arguments.setup`: the settings and identifiers that follow from it
-/

namespace ChatClient

/-- The options that take a value. -/
inductive Switch
  | user | room | url | cookie | queueFile | backoffBase | backoffLimit | typingIdle
  deriving DecidableEq, Repr

namespace Switch

def all : List Switch :=
  [user, room, url, cookie, queueFile, backoffBase, backoffLimit, typingIdle]

/-- The name after two hyphens. -/
def name : Switch → String
  | user => "user"
  | room => "room"
  | url => "url"
  | cookie => "cookie"
  | queueFile => "queue-file"
  | backoffBase => "backoff-base-ms"
  | backoffLimit => "backoff-max-ms"
  | typingIdle => "typing-idle-ms"

/-- The letter after one hyphen. -/
def letter? : Switch → Option Char
  | user => some 'u'
  | room => some 'r'
  | _ => none

def ofName? (s : String) : Option Switch := all.find? fun o => o.name == s

def ofLetter? (c : Char) : Option Switch := all.find? fun o => o.letter? == some c

end Switch

/-- The largest number that can be given. -/
def numberLimit : Nat := 18446744073709551615

/-- The number that a value spells: digits, which a plus may precede. -/
def number? (s : String) : Option Nat :=
  let digits :=
    match s.toList with
    | '+' :: cs => cs
    | cs => cs
  if digits ≠ [] ∧ digits.all Text.isDigit ∧ Text.decimal digits ≤ numberLimit then
    some (Text.decimal digits)
  else none

/-- What a command line says. -/
structure Arguments where
  values : List (Switch × String) := []
  dropStaleQueue : Bool := false
  deriving DecidableEq, Repr

/-- Why there is nothing to be set up. -/
inductive CommandLineStop
  /-- Help was asked for. -/
  | help
  /-- The words make no sense. -/
  | misuse
  deriving DecidableEq, Repr

namespace Arguments

def value? (a : Arguments) (o : Switch) : Option String := a.values.lookup o

/-- The option can have the value. -/
def admits (o : Switch) (value : String) : Bool :=
  match o with
  | .queueFile => value != ""
  | .backoffBase | .backoffLimit | .typingIdle => (number? value).isSome
  | .user | .room | .url | .cookie => true

/-- Notes the value of an option that has none yet. -/
def note (a : Arguments) (o : Switch) (value : String) : Except CommandLineStop Arguments :=
  if (a.value? o).isSome || !admits o value then .error .misuse
  else .ok { a with values := a.values ++ [(o, value)] }

/-- What one word says. -/
inductive Word
  | help
  | dropStaleQueue
  /-- An option with its value, or one whose value is the next word. -/
  | switch (o : Switch) (value : Option String)
  /-- No options follow. -/
  | endOfOptions
  deriving DecidableEq, Repr

/-- A name and the value attached to it. -/
def splitValue (cs : List Char) : String × Option String :=
  match cs.dropWhile (· ≠ '=') with
  | [] => (String.ofList cs, none)
  | _ :: value => (String.ofList (cs.takeWhile (· ≠ '=')), some (String.ofList value))

/-- What is said by a word with two hyphens in front, which are left off. -/
def Word.ofName? (cs : List Char) : Option Word :=
  match splitValue cs with
  | ("help", none) => some .help
  | ("drop-stale-queue", none) => some .dropStaleQueue
  | (name, value) => (Switch.ofName? name).map fun o => .switch o value

/-- What is said by a word with one hyphen in front, which is left off. -/
def Word.ofLetters? : List Char → Option Word
  | [] => none
  | 'h' :: _ => some .help
  | c :: rest =>
    (Switch.ofLetter? c).map fun o =>
      match rest with
      | [] => .switch o none
      | '=' :: value => .switch o (some (String.ofList value))
      | value => .switch o (some (String.ofList value))

/-- What a word says that is not the value of the option before it. -/
def Word.ofChars? : List Char → Option Word
  | ['-', '-'] => some .endOfOptions
  | '-' :: '-' :: cs => ofName? cs
  | '-' :: cs => ofLetters? cs
  | _ => none

/-- The word can be the value of the option before it. -/
def isValue (word : String) : Bool :=
  match word.toList with
  | '-' :: _ :: _ => false
  | _ => true

/-- Reads the words that follow others. -/
def parseFrom (a : Arguments) : List String → Except CommandLineStop Arguments
  | [] => .ok a
  | word :: words =>
    match Word.ofChars? word.toList with
    | none => .error .misuse
    | some .help => .error .help
    | some .dropStaleQueue =>
      if a.dropStaleQueue then .error .misuse
      else parseFrom { a with dropStaleQueue := true } words
    | some .endOfOptions => if words.isEmpty then .ok a else .error .misuse
    | some (.switch o (some value)) =>
      match a.note o value with
      | .error stop => .error stop
      | .ok a => parseFrom a words
    | some (.switch o none) =>
      match words with
      | [] => .error .misuse
      | value :: words =>
        -- A word that looks like an option is never taken for the value of another one.
        if isValue value then
          match a.note o value with
          | .error stop => .error stop
          | .ok a => parseFrom a words
        else .error .misuse

/-- Reads the words of a command line. The user and the room have to be given. -/
def parse (words : List String) : Except CommandLineStop Arguments := do
  let a ← parseFrom {} words
  if (a.value? .user).isSome && (a.value? .room).isSome then return a else .error .misuse

/-- What the program is set up with. -/
structure Setup where
  user : UserId
  credential : Option Credential
  room : RoomId
  config : Config

/-- The number given for an option. -/
def numberOr (a : Arguments) (o : Switch) (default : Nat) : Nat :=
  ((a.value? o).bind number?).getD default

/-- The settings that the arguments ask for. -/
def config (a : Arguments) : Config :=
  let d : Config := {}
  { serverUrl := (a.value? .url).getD d.serverUrl
    backoff := {
      base := a.numberOr .backoffBase d.backoff.base
      limit := a.numberOr .backoffLimit d.backoff.limit }
    typingIdle := a.numberOr .typingIdle d.typingIdle
    queueFile := a.value? .queueFile
    flushPolicy := if a.dropStaleQueue then .dropOtherRooms else .retainOtherRooms }

/-- The settings and identifiers that the arguments ask for. The user is looked at first, then the
cookie, then the room. -/
def setup (a : Arguments) : Except BlankIdent Setup := do
  let user ← Ident.ofText .user ((a.value? .user).getD "")
  let credential ← (a.value? .cookie).mapM (Ident.ofText .credential)
  let room ← Ident.ofText .room ((a.value? .room).getD "")
  return { user, credential, room, config := a.config }

end Arguments

end ChatClient
