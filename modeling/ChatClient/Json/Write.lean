import ChatClient.Json.Quoted

/-!
# Writing JSON

Texts are written without any space, the members of an object in the order in which they are given.

## Main definitions

* `writeList`, `writeObject`: values that hold others, made from the written forms of these
* `writeNullable`: a value that may be missing
-/

namespace ChatClient.Json

/-- Written forms with a comma between each two. -/
def commaSeparated : List (List Char) → List Char
  | [] => []
  | [item] => item
  | item :: items => item ++ ',' :: commaSeparated items

def writeList (items : List (List Char)) : List Char :=
  '[' :: commaSeparated items ++ [']']

/-- A member of an object: its name and the written form of its value. -/
abbrev Member := String × List Char

def writeMember (m : Member) : List Char :=
  quote m.1 ++ ':' :: m.2

def writeObject (members : List Member) : List Char :=
  '{' :: commaSeparated (members.map writeMember) ++ ['}']

def writeNullable {α : Type} (write : α → List Char) : Option α → List Char
  | none => ['n', 'u', 'l', 'l']
  | some a => write a

/-- The member of a value that is left out when it is missing. -/
def memberIfPresent {α : Type} (name : String) (write : α → List Char) : Option α → List Member
  | none => []
  | some a => [(name, write a)]

end ChatClient.Json
