import ChatClient.Json.Skip

/-!
# Readers for typed values

A reader takes one value of a wanted type from the front of a text. Values of a wrong type are
refused where they start: a value that holds others at its bracket, any other one as soon as it has
been read, since it has to be well formed all the same.

A record is read from an object, whose members may come in any order and may be joined by others, or
from a list of its fields in their declared order. The two forms differ in what may be missing. In
an object the record itself decides, when the closing bracket comes; in a list only fields at the
end may be left off, and only those that are declared *spare*. No field may be given twice.

## Main definitions

* `mismatchAt`: what is wrong with a value that is not of the wanted type
* `text`, `nullable`, `list`: readers
* `Field`, `Record`, `Record.read`: records
* `document`: a text that holds one value and nothing else
-/

namespace ChatClient.Json

/-- What is wrong with a text whose first value is not of the wanted type; the text starts with the
value. -/
def mismatchAt : List Char → Problem
  | [] => .truncated
  | c :: cs =>
    let after (outcome : Except Problem (List Char)) : Problem :=
      match outcome with
      | .ok _ => .mismatch
      | .error problem => problem
    if c = '[' ∨ c = '{' then .mismatch
    else if c = 'n' then after (literal ['u', 'l', 'l'] cs)
    else if c = 't' then after (literal ['r', 'u', 'e'] cs)
    else if c = 'f' then after (literal ['a', 'l', 's', 'e'] cs)
    else if c = '"' then after ((readQuoted [] cs).map Prod.snd)
    else if c = '-' then numberProblem cs
    else if Text.isDigit c then numberProblem (c :: cs)
    else .malformed

/-- Reads a text. -/
def text : Reader String := fun cs =>
  match skipSpace cs with
  | '"' :: rest => do
    let (body, rest) ← readQuoted [] rest
    return (String.ofList body, rest)
  | rest => .error (mismatchAt rest)

/-- Reads a text that has to pass a test. -/
def textAs {α : Type} (ofText? : String → Option α) : Reader α := fun cs => do
  let (s, rest) ← text cs
  match ofText? s with
  | some a => return (a, rest)
  | none => .error .mismatch

/-- Reads `null` as nothing and anything else by the given reader. -/
def nullable {α : Type} (read : Reader α) : Reader (Option α) := fun cs =>
  match skipSpace cs with
  | 'n' :: rest => do return (none, ← literal ['u', 'l', 'l'] rest)
  | rest => do
    let (a, rest) ← read rest
    return (some a, rest)

/-- The text from the next element of a list on, or nothing together with the text after the list
when it ends here. No comma is wanted before the first element. -/
def nextElement (first : Bool) (cs : List Char) : Except Problem (Option (List Char) × List Char) :=
  match skipSpace cs with
  | [] => .error .truncated
  | c :: rest =>
    if c = ']' then .ok (none, rest)
    else if first then .ok (some (c :: rest), [])
    else if c = ',' then
      match skipSpace rest with
      | [] => .error .truncated
      | d :: rest => if d = ']' then .error .malformed else .ok (some (d :: rest), [])
    else .error .malformed

/-- The elements of a list after the bracket that opens it; `acc` holds those read so far, the last
one first. -/
def elementsFrom {α : Type} (read : Reader α) : (fuel : Nat) → (acc : List α) → Reader (List α)
  | 0, _, _ => .error .truncated
  | fuel + 1, acc, cs => do
    match ← nextElement acc.isEmpty cs with
    | (none, rest) => return (acc.reverse, rest)
    | (some rest, _) =>
      let (a, rest) ← read rest
      elementsFrom read fuel (a :: acc) rest

/-- Reads a list. -/
def list {α : Type} (read : Reader α) : Reader (List α) := fun cs =>
  match skipSpace cs with
  | '[' :: rest => elementsFrom read (rest.length + 1) [] rest
  | rest => .error (mismatchAt rest)

/-! ## Records -/

/-- A field of a record that is gathered in a draft of type `δ`. -/
structure Field (δ : Type) where
  name : String
  /-- Reads the value and puts it into the draft. -/
  read : δ → Reader δ
  /-- A list of the fields may end before this one. -/
  spare : Bool

/-- How values of type `α` are read: from a draft that the fields fill in. -/
structure Record (δ α : Type) where
  fields : List (Field δ)
  blank : δ
  /-- The value of a finished draft; nothing when a field is missing. -/
  finish : δ → Option α

namespace Record

variable {δ α : Type}

/-- The name of a member; the text starts after the quote that opens it. -/
def memberName : Reader String := fun cs => do
  let (body, rest) ← readQuoted [] cs
  return (String.ofList body, rest)

/-- The text from the name of the next member on, after its quote, or nothing together with the text
after the object when it ends here. No comma is wanted before the first member. -/
def nextMember (first : Bool) (cs : List Char) : Except Problem (Option (List Char) × List Char) :=
  match skipSpace cs with
  | [] => .error .truncated
  | c :: rest =>
    if c = '}' then .ok (none, rest)
    else if first then
      if c = '"' then .ok (some rest, []) else .error .malformed
    else if c = ',' then
      match skipSpace rest with
      | [] => .error .truncated
      | d :: rest => if d = '"' then .ok (some rest, []) else .error .malformed
    else .error .malformed

/-- The members of an object after the bracket that opens it. `seen` holds the names of the fields
met so far. -/
def membersFrom (fields : List (Field δ)) : (fuel : Nat) → (first : Bool) → (seen : List String) →
    (draft : δ) → Reader δ
  | 0, _, _, _, _ => .error .truncated
  | fuel + 1, first, seen, draft, cs => do
    match ← nextMember first cs with
    | (none, rest) => return (draft, rest)
    | (some rest, _) =>
      let (name, rest) ← memberName rest
      match fields.find? (fun field => field.name == name) with
      | none =>
        let rest ← skipValue (← expect ':' rest)
        membersFrom fields fuel false seen draft rest
      | some field =>
        -- A second value is refused as soon as its name has been read.
        if name ∈ seen then .error .mismatch
        else
          let (draft, rest) ← field.read draft (← expect ':' rest)
          membersFrom fields fuel false (name :: seen) draft rest

/-- The fields of a record in the form of a list, after the bracket that opens it, up to the bracket
that closes it. -/
def elementsFrom : (fields : List (Field δ)) → (first : Bool) → (draft : δ) → Reader δ
  | [], _, draft, cs => do return (draft, ← expect ']' cs)
  | field :: fields, first, draft, cs => do
    match ← nextElement first cs with
    | (none, rest) =>
      if (field :: fields).all Field.spare then return (draft, rest) else .error .mismatch
    | (some rest, _) =>
      let (draft, rest) ← field.read draft rest
      elementsFrom fields false draft rest

/-- Reads a record in either form. -/
def read (r : Record δ α) : Reader α := fun cs =>
  let finished (draft : δ) (rest : List Char) : Except Problem (α × List Char) :=
    match r.finish draft with
    | some a => .ok (a, rest)
    | none => .error .mismatch
  match skipSpace cs with
  | '{' :: rest => do
    let (draft, rest) ← membersFrom r.fields (rest.length + 1) true [] r.blank rest
    finished draft rest
  | '[' :: rest => do
    let (draft, rest) ← elementsFrom r.fields true r.blank rest
    finished draft rest
  | rest => .error (mismatchAt rest)

end Record

/-- The value of a text that holds one value and nothing but space around it. -/
def document {α : Type} (read : Reader α) (s : String) : Except Problem α := do
  let (a, rest) ← read s.toList
  match skipSpace rest with
  | [] => return a
  | _ :: _ => .error .malformed

end ChatClient.Json
