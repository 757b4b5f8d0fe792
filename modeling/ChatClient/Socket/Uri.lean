import ChatClient.Text.Digit

/-!
# Absolute addresses

The address of a room has to be absolute: a scheme, `://`, the name of a host with whatever belongs
to it, and a path, which a question mark and a query may follow. Everything from a `#` on is left
off. The three parts have different ideas of which characters they may hold. In the path and the
query that is nearly everything but controls, space, and the angle brackets.

## Main definitions

* `Uri`, `Uri.parse?`
-/

namespace ChatClient

/-- The parts of an absolute address. -/
structure Uri where
  scheme : String
  /-- The host, with a port behind it and a user before it, if there are any. -/
  authority : String
  pathAndQuery : String
  deriving DecidableEq, Repr

namespace Uri

/-- A letter or digit of the ASCII range. -/
def isAlphanumeric (c : Char) : Bool :=
  Text.isDigit c || ('A' ≤ c && c ≤ 'Z') || ('a' ≤ c && c ≤ 'z')

def isSchemeChar (c : Char) : Bool :=
  isAlphanumeric c || c ∈ ['+', '-', '.', '~']

/-- The longest scheme. -/
def longestScheme : Nat := 64

/-- The longest address, in bytes. -/
def longestUri : Nat := 65534

/-- A character that an authority can hold, brackets and percent signs included. -/
def isAuthorityChar (c : Char) : Bool :=
  isAlphanumeric c ||
    c ∈ ['!', '$', '&', '\'', '(', ')', '*', '+', ',', '-', '.', ':', ';', '=', '@', '[', ']', '_',
      '~', '%']

/-- A character with which an authority ends. -/
def endsAuthority (c : Char) : Bool := c == '/' || c == '?' || c == '#'

/-- What has been seen of an authority. The colons and percent signs of a user and of a bracketed
host are forgotten. -/
structure AuthoritySeen where
  colons : Nat := 0
  percent : Bool := false
  opened : Bool := false
  closed : Bool := false

/-- The most colons between brackets. -/
def mostColons : Nat := 8

/-- Takes note of one more character; nothing if it cannot stand there. -/
def AuthoritySeen.see? (a : AuthoritySeen) (c : Char) : Option AuthoritySeen :=
  if !isAuthorityChar c then none
  else if c = ':' then
    if a.colons < mostColons then some { a with colons := a.colons + 1 } else none
  else if c = '[' then if a.percent || a.opened then none else some { a with opened := true }
  else if c = ']' then
    if !a.opened || a.closed then none
    else some { a with closed := true, colons := 0, percent := false }
  else if c = '@' then some { a with colons := 0, percent := false }
  else if c = '%' then some { a with percent := true }
  else some a

/-- The characters can be an authority. -/
def isAuthority (cs : List Char) : Bool :=
  match cs.foldlM AuthoritySeen.see? {} with
  | none => false
  | some a =>
    cs ≠ [] && a.opened == a.closed && a.colons ≤ 1 && !a.percent && cs.getLast? != some '@'

/-- The host of an authority, with its port: what follows the first `@`. -/
def hostOf (authority : List Char) : List Char :=
  match authority.dropWhile (· ≠ '@') with
  | [] => authority
  | _ :: host => host

def isPathChar (c : Char) : Bool :=
  let n := c.toNat
  n == 0x21 || n == 0x22 || (0x24 ≤ n && n ≤ 0x3B) || n == 0x3D || (0x40 ≤ n && n ≤ 0x5F) ||
    (0x61 ≤ n && n ≤ 0x7E) || 0x80 ≤ n

def isQueryChar (c : Char) : Bool :=
  let n := c.toNat
  n == 0x21 || (0x24 ≤ n && n ≤ 0x3B) || n == 0x3D || (0x3F ≤ n && n ≤ 0x7E) || 0x80 ≤ n

/-- The path and the query, if they are in order, without what follows a `#`. -/
def pathAndQuery? (cs : List Char) : Option (List Char) :=
  let cs := cs.takeWhile (· ≠ '#')
  let path := cs.takeWhile (· ≠ '?')
  let query := (cs.dropWhile (· ≠ '?')).drop 1
  if path.all isPathChar && query.all isQueryChar then some cs else none

/-- The scheme and what follows it. -/
def scheme? (cs : List Char) : Option (List Char × List Char) :=
  let scheme := cs.takeWhile isSchemeChar
  match cs.dropWhile isSchemeChar with
  | ':' :: '/' :: '/' :: rest => if scheme.length ≤ longestScheme then some (scheme, rest) else none
  | _ => none

/-- The parts of an address, if it is absolute and names a host. -/
def parse? (s : String) : Option Uri := do
  guard (s.utf8ByteSize ≤ longestUri)
  let (scheme, rest) ← scheme? s.toList
  let authority := rest.takeWhile fun c => !endsAuthority c
  guard (isAuthority authority && !(hostOf authority).isEmpty)
  let tail ← pathAndQuery? (rest.dropWhile fun c => !endsAuthority c)
  return ⟨String.ofList scheme, String.ofList authority, String.ofList tail⟩

example : (parse? "ws://127.0.0.1:8080/rooms/a#b/ws").map Uri.pathAndQuery = some "/rooms/a" := by
  decide
example : parse? "127.0.0.1:8080/rooms/g/ws" = none := by decide

end Uri

end ChatClient
