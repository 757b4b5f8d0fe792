/-!
# Paths

A path is a list of names below one base directory. Slashes that follow each other count as one, and
the name `.` says nothing, except that a slash or a dot at the end call for a directory. The name
`..` is kept, because the directory that it leaves has to exist. What says nothing still counts for
the length of the path.

## Main definitions

* `Path`, `Path.ofText`, `Path.size`
* `Path.parent`: the path without its last name
* `Path.temporary`: the file that a new version of a file is written to first
-/

namespace ChatClient

/-- What follows the last name of a path. Slashes behind a dot change nothing. -/
inductive PathEnding
  | plain | slash | dot
  deriving DecidableEq, Repr

/-- A path below the base directory. -/
structure Path where
  names : List String
  ending : PathEnding := .plain
  /-- How many bytes it has beyond its names with a slash between each two. -/
  padding : Nat := 0
  deriving DecidableEq, Repr

namespace Path

/-- How long the names are with a slash between each two, in bytes. -/
def joinedSize (names : List String) : Nat :=
  names.foldl (fun n name => n + name.utf8ByteSize + 1) 0 - 1

/-- How long the path is, in bytes. -/
def size (p : Path) : Nat := joinedSize p.names + p.padding

/-- The parts between the slashes; there is always one more part than slashes. -/
def splitSlashes : List Char → List (List Char)
  | [] => [[]]
  | c :: cs =>
    if c = '/' then [] :: splitSlashes cs
    else
      match splitSlashes cs with
      | part :: parts => (c :: part) :: parts
      | [] => [[c]]

def ofText (s : String) : Path :=
  let parts := splitSlashes s.toList
  let names := (parts.filter fun part => part ≠ [] ∧ part ≠ ['.']).map String.ofList
  { names
    ending :=
      match parts.reverse with
      | [] :: parts => if parts.find? (· ≠ []) = some ['.'] then .dot else .slash
      | ['.'] :: _ => .dot
      | _ => .plain
    padding := s.utf8ByteSize - joinedSize names }

/-- The path without its last name. -/
def parent (p : Path) : Path := { names := p.names.dropLast }

/-- A name that leads back up. -/
def up : String := ".."

/-- The name of the file, if the path ends in one. -/
def fileName? (p : Path) : Option String :=
  p.names.getLast?.filter (· ≠ up)

/-- A name in front of its last point and behind it. A point at the very front separates nothing. -/
def splitExtension (name : List Char) : List Char × Option (List Char) :=
  let back := name.reverse
  match back.dropWhile (· ≠ '.') with
  | [] => (name, none)
  | [_] => (name, none)
  | _ :: stem => (stem.reverse, some (back.takeWhile (· ≠ '.')).reverse)

example : splitExtension "a.b.json".toList = ("a.b".toList, some "json".toList) := by decide
example : splitExtension ".queue".toList = (".queue".toList, none) := by decide

/-- The name with the extension `tmp` in the place of the one it has. A name made of two points and
an extension loses the extension and nothing takes its place, since what remains leads back up. -/
def temporaryName (name : String) : String :=
  match splitExtension name.toList with
  | (['.'], some (_ :: _)) => up
  | (stem, _) => String.ofList (stem ++ ".tmp".toList)

/-- The file that a new version of the file is written to first. A path that ends in no file is its
own one. -/
def temporary (p : Path) : Path :=
  match p.fileName? with
  | none => p
  | some name =>
    let name := if p.ending = .plain then temporaryName name
      else String.ofList ((splitExtension name.toList).1 ++ ".tmp".toList)
    { names := p.names.dropLast ++ [name]
      padding := if p.ending = .plain then p.padding else 0 }

example : (ofText "d/a.b.json").temporary = ofText "d/a.b.tmp" := by decide
example : (ofText "..q").temporary = ofText ".." := by decide
example : (ofText "d/q/.//").ending = .dot := by decide

end Path

end ChatClient
