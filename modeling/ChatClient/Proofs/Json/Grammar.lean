import ChatClient.Json.Skip
import Mathlib.Tactic.Common

/-!
# The texts of JSON

A JSON value can be written in many ways. There may be space between its parts, the members of an
object may come in any order, and every character of a text has several spellings: as it is, by a
short escape, by the four hexadecimal digits of its number, or by those of its two halves. Here it
is said which texts are values, without a word about how they are read.

A text between quotes plays two roles. If it is wanted it has to spell characters, so that half a
character is of no use. If it is passed over only its form counts.

## Main definitions

* `Spells`: the spellings of a text
* `IsQuotable`: what may stand between quotes
* `IsNumber`: the numbers
* `IsValue`: the values
* `Separated`, `IsMember`, `IsElement`: the parts of an object and of a list
* `EndsValue`: what may follow a value
-/

namespace ChatClient.Json

open Text (isDigit)

/-- Space that may stand between the parts of a value. -/
def IsSpacing (cs : List Char) : Prop := ∀ c ∈ cs, isSpace c = true

theorem isSpacing_nil : IsSpacing [] := List.forall_mem_nil _

/-! ## Texts between quotes -/

/-- The characters that have an escape of one letter, each with its letter in front. -/
def shortEscapes : List (Char × Char) := [
  ('"', '"'), ('\\', '\\'), ('/', '/'), ('b', '\x08'), ('f', '\x0c'), ('n', '\n'), ('r', '\r'),
  ('t', '\t')]

/-- The spellings of one character. -/
inductive SpellsChar : Char → List Char → Prop
  | plain {c : Char} (printable : 0x20 ≤ c.toNat) (quote : c ≠ '"') (backslash : c ≠ '\\') :
      SpellsChar c [c]
  | short {letter c : Char} (escape : (letter, c) ∈ shortEscapes) : SpellsChar c ['\\', letter]
  | unit {c h₁ h₂ h₃ h₄ : Char} (number : hexUnit? h₁ h₂ h₃ h₄ = some c.toNat) :
      SpellsChar c ['\\', 'u', h₁, h₂, h₃, h₄]
  /-- A character beyond U+FFFF is made of two halves. -/
  | halves {c h₁ h₂ h₃ h₄ h₅ h₆ h₇ h₈ : Char} {lead trail : Nat}
      (lead_eq : hexUnit? h₁ h₂ h₃ h₄ = some lead) (trail_eq : hexUnit? h₅ h₆ h₇ h₈ = some trail)
      (isLead : 0xD800 ≤ lead ∧ lead ≤ 0xDBFF) (isTrail : 0xDC00 ≤ trail ∧ trail ≤ 0xDFFF)
      (number : c.toNat = 0x10000 + (lead - 0xD800) * 0x400 + (trail - 0xDC00)) :
      SpellsChar c ['\\', 'u', h₁, h₂, h₃, h₄, '\\', 'u', h₅, h₆, h₇, h₈]

/-- The spellings of a text, without the quotes around it. -/
inductive Spells : List Char → List Char → Prop
  | nil : Spells [] []
  | cons {c : Char} {cs part rest : List Char} (first : SpellsChar c part) (more : Spells cs rest) :
      Spells (c :: cs) (part ++ rest)

/-- What may stand between quotes, whether or not it spells a text: characters and escapes of the
right form. -/
inductive IsQuotable : List Char → Prop
  | nil : IsQuotable []
  | plain {c : Char} {rest : List Char} (printable : 0x20 ≤ c.toNat) (quote : c ≠ '"')
      (backslash : c ≠ '\\') (more : IsQuotable rest) : IsQuotable (c :: rest)
  | short {letter c : Char} {rest : List Char} (escape : (letter, c) ∈ shortEscapes)
      (more : IsQuotable rest) : IsQuotable ('\\' :: letter :: rest)
  | unit {h₁ h₂ h₃ h₄ : Char} {n : Nat} {rest : List Char} (number : hexUnit? h₁ h₂ h₃ h₄ = some n)
      (more : IsQuotable rest) : IsQuotable ('\\' :: 'u' :: h₁ :: h₂ :: h₃ :: h₄ :: rest)

/-- The ways to write a text, with the quotes around it. -/
inductive IsText (s : String) : List Char → Prop
  | quoted {body : List Char} (spells : Spells s.toList body) : IsText s ('"' :: body ++ ['"'])

/-! ## Numbers -/

def IsDigits (cs : List Char) : Prop := cs ≠ [] ∧ ∀ c ∈ cs, isDigit c = true

/-- The digits before the point. A zero stands alone. -/
inductive IsWhole : List Char → Prop
  | zero : IsWhole ['0']
  | digits {c : Char} {cs : List Char} (nonzero : c ≠ '0') (digits : IsDigits (c :: cs)) :
      IsWhole (c :: cs)

/-- The digits after the point, if there are any. -/
inductive IsFraction : List Char → Prop
  | none : IsFraction []
  | digits {cs : List Char} (digits : IsDigits cs) : IsFraction ('.' :: cs)

/-- The exponent, if there is one. -/
inductive IsExponent : List Char → Prop
  | none : IsExponent []
  | digits {e : Char} {sign cs : List Char} (letter : e = 'e' ∨ e = 'E')
      (signed : sign = [] ∨ sign = ['+'] ∨ sign = ['-']) (digits : IsDigits cs) :
      IsExponent (e :: sign ++ cs)

inductive IsNumber : List Char → Prop
  | mk {sign whole fraction exponent : List Char} (signed : sign = [] ∨ sign = ['-'])
      (isWhole : IsWhole whole) (isFraction : IsFraction fraction)
      (isExponent : IsExponent exponent) : IsNumber (sign ++ whole ++ fraction ++ exponent)

/-! ## Values -/

def Bracket.opener : Bracket → Char
  | .list => '['
  | .object => '{'

/-- What stands in front of a value between brackets: space, and in an object the name of the
member. -/
inductive IsLabel : Bracket → List Char → Prop
  | element {space : List Char} (isSpacing : IsSpacing space) : IsLabel .list space
  | member {space name space' space'' : List Char} (isSpacing : IsSpacing space)
      (isName : IsQuotable name) (isSpacing' : IsSpacing space') (isSpacing'' : IsSpacing space'') :
      IsLabel .object (space ++ '"' :: name ++ '"' :: space' ++ ':' :: space'')

/-- What the grammar has names for: a value, and what stands between two brackets that are not
empty. -/
inductive Symbol
  | value
  | items (b : Bracket)

/-- The texts that the grammar derives from a symbol. -/
inductive Derives : Symbol → List Char → Prop
  | null : Derives .value ['n', 'u', 'l', 'l']
  | true : Derives .value ['t', 'r', 'u', 'e']
  | false : Derives .value ['f', 'a', 'l', 's', 'e']
  | number {cs : List Char} (isNumber : IsNumber cs) : Derives .value cs
  | text {cs : List Char} (isQuotable : IsQuotable cs) : Derives .value ('"' :: cs ++ ['"'])
  | empty (b : Bracket) {space : List Char} (isSpacing : IsSpacing space) :
      Derives .value (b.opener :: space ++ [b.closer])
  | full {b : Bracket} {cs : List Char} (items : Derives (.items b) cs) :
      Derives .value (b.opener :: cs ++ [b.closer])
  | last {b : Bracket} {label cs space : List Char} (isLabel : IsLabel b label)
      (value : Derives .value cs) (isSpacing : IsSpacing space) :
      Derives (.items b) (label ++ cs ++ space)
  | more {b : Bracket} {label cs space rest : List Char} (isLabel : IsLabel b label)
      (value : Derives .value cs) (isSpacing : IsSpacing space) (items : Derives (.items b) rest) :
      Derives (.items b) (label ++ cs ++ space ++ ',' :: rest)

/-- The text is a value, without space around it. -/
def IsValue (cs : List Char) : Prop := Derives .value cs

/-- Parts with a comma between each two. -/
inductive Separated {α : Type} (IsPart : α → List Char → Prop) : List α → List Char → Prop
  | last {a : α} {cs : List Char} (isPart : IsPart a cs) : Separated IsPart [a] cs
  | more {a : α} {as : List α} {cs rest : List Char} (isPart : IsPart a cs)
      (parts : Separated IsPart as rest) : Separated IsPart (a :: as) (cs ++ ',' :: rest)

/-- An element of a list, with space around it. -/
inductive IsElement (value : List Char) : List Char → Prop
  | mk {space space' : List Char} (isSpacing : IsSpacing space) (isSpacing' : IsSpacing space') :
      IsElement value (space ++ value ++ space')

/-- A member of an object: its name in some spelling, a colon and its value, with space around
them. -/
inductive IsMember (m : String × List Char) : List Char → Prop
  | mk {before name afterName beforeValue after : List Char} (isSpacing_before : IsSpacing before)
      (spells : Spells m.1.toList name) (isSpacing_afterName : IsSpacing afterName)
      (isSpacing_beforeValue : IsSpacing beforeValue) (isSpacing_after : IsSpacing after) :
      IsMember m
        (before ++ '"' :: name ++ '"' :: afterName ++ ':' :: beforeValue ++ m.2 ++ after)

/-- What may follow a value. -/
def EndsValue (rest : List Char) : Prop :=
  ∀ c ∈ rest.head?, isSpace c = true ∨ c = ',' ∨ c = ']' ∨ c = '}'

end ChatClient.Json
