import ChatClient.Json.Number
import ChatClient.Json.Quoted

/-!
# Passing over values

A value that nobody asked for is passed over, however deep it is nested. The brackets that are open
are kept in a list, the innermost first, so depth costs no recursion. Everything in the value has to
be well formed, texts as far as `skipQuoted` looks.

## Main definitions

* `skipValue`: the text after the value at its front
-/

namespace ChatClient.Json

/-- The two kinds of values that hold other values. -/
inductive Bracket
  | list | object
  deriving DecidableEq, Repr

def Bracket.closer : Bracket → Char
  | .list => ']'
  | .object => '}'

/-- The text from the value of the next member on: in an object the name and the colon have to be
passed over first. -/
def Bracket.skipName (b : Bracket) (cs : List Char) : Except Problem (List Char) :=
  match b with
  | .list => .ok cs
  | .object => do expect ':' (← skipQuoted (← expect '"' cs))

/-- What a value is made of at one point of passing over it. -/
inductive SkipState
  /-- A value starts here. -/
  | value
  /-- The bracket has just been opened. -/
  | opened (b : Bracket)
  /-- A value has just ended. -/
  | ended
  deriving DecidableEq, Repr

/-- The text after a value that holds no others and starts with `c`. -/
def skipScalar (c : Char) (cs : List Char) : Except Problem (List Char) :=
  if c = 'n' then literal ['u', 'l', 'l'] cs
  else if c = 't' then literal ['r', 'u', 'e'] cs
  else if c = 'f' then literal ['a', 'l', 's', 'e'] cs
  else if c = '"' then skipQuoted cs
  else if c = '-' then skipNumber cs
  else if Text.isDigit c then skipNumber (c :: cs)
  else .error .malformed

/-- Passes over the rest of a value with the brackets `outer` still to be closed. Every second step
takes a character, so twice the length of the text is fuel enough. -/
def skipFrom : (fuel : Nat) → SkipState → (outer : List Bracket) → List Char →
    Except Problem (List Char)
  | 0, _, _, _ => .error .truncated
  | fuel + 1, .value, outer, cs =>
    match skipSpace cs with
    | [] => .error .truncated
    | c :: rest =>
      if c = '[' then skipFrom fuel (.opened .list) outer rest
      else if c = '{' then skipFrom fuel (.opened .object) outer rest
      else do skipFrom fuel .ended outer (← skipScalar c rest)
  | fuel + 1, .opened b, outer, cs =>
    match skipSpace cs with
    | [] => .error .truncated
    | c :: rest =>
      if c = b.closer then skipFrom fuel .ended outer rest
      else do skipFrom fuel .value (b :: outer) (← b.skipName (c :: rest))
  | _ + 1, .ended, [], cs => .ok cs
  | fuel + 1, .ended, b :: outer, cs =>
    match skipSpace cs with
    | [] => .error .truncated
    | c :: rest =>
      if c = ',' then do skipFrom fuel .value (b :: outer) (← b.skipName rest)
      else if c = b.closer then skipFrom fuel .ended outer rest
      else .error .malformed

/-- The text after the value at its front. -/
def skipValue (cs : List Char) : Except Problem (List Char) :=
  skipFrom (2 * cs.length + 2) .value [] cs

example : skipValue "[[1,[]],\"b\",-0.5e3] ,".toList = .ok " ,".toList := by decide +kernel
example : skipValue "[1,]".toList = .error .malformed := by decide +kernel
example : skipValue "[[".toList = .error .truncated := by decide +kernel

end ChatClient.Json
