import ChatClient.Files.Path
import ChatClient.Lookup

/-!
# What is on disk

A tree of directories and files below one base directory. Every place in it is known by the names
that lead there. Reading and changing it can fail in the ways in which a file system refuses.

## Main definitions

* `FileError`
* `Content`
* `Tree`, `Tree.find?`, `Tree.set`, `Tree.erase`
* `Tree.enter`: the place where the directories of a path lead
* `Tree.read`, `Tree.makeDirs`, `Tree.write`, `Tree.rename`, `Tree.remove`
* `Tree.change`: a change made from outside
-/

namespace ChatClient

/-- Why the file system refuses. -/
inductive FileError
  | notFound | fileExists | notDirectory | isDirectory | nameTooLong | busy | nulInName | notUtf8
  deriving DecidableEq, Repr

def FileError.message : FileError → String
  | notFound => "No such file or directory (os error 2)"
  | busy => "Device or resource busy (os error 16)"
  | fileExists => "File exists (os error 17)"
  | notDirectory => "Not a directory (os error 20)"
  | isDirectory => "Is a directory (os error 21)"
  | nameTooLong => "File name too long (os error 36)"
  | nulInName => "file name contained an unexpected NUL byte"
  | notUtf8 => "stream did not contain valid UTF-8"

/-- What is in a file. -/
abbrev Content := List UInt8

/-- The bytes of a text. -/
def Content.ofText (s : String) : Content := s.toUTF8.data.toList

/-- The text that the bytes are, if they are one. -/
def Content.text? (bytes : Content) : Option String := String.fromUTF8? ⟨bytes.toArray⟩

@[simp] theorem Content.text?_ofText (s : String) : (ofText s).text? = some s := by
  simp [text?, ofText, String.fromUTF8?, s.isValidUTF8]
  rfl

/-- What can be found at a place. -/
inductive Node
  | directory
  | file (content : Content)
  deriving DecidableEq

/-- The names that lead to a place from the base directory. -/
abbrev Place := List String

/-- Directories and files, each at its place. The base directory itself is not listed. -/
structure Tree where
  nodes : List (Place × Node) := []

namespace Tree

def empty : Tree := {}

/-- What is at the place. -/
def find? (t : Tree) (place : Place) : Option Node :=
  if place = [] then some .directory else t.nodes.lookup place

/-- The tree with something else at the place. -/
def set (t : Tree) (place : Place) (node : Node) : Tree :=
  ⟨assign t.nodes place node⟩

/-- The tree without the place and all that is below it. -/
def erase (t : Tree) (place : Place) : Tree :=
  ⟨t.nodes.filter fun entry => !place.isPrefixOf entry.1⟩

/-- The longest name, in bytes. -/
def longestName : Nat := 255

/-- Follows names that have to lead to directories, starting at a place that is one. -/
def enter (t : Tree) : Place → List String → Except FileError Place
  | place, [] => .ok place
  | place, name :: names =>
    if name = Path.up then t.enter place.dropLast names
    else if longestName < name.utf8ByteSize then .error .nameTooLong
    else
      match t.find? (place ++ [name]) with
      | none => .error .notFound
      | some (.file _) => .error .notDirectory
      | some .directory => t.enter (place ++ [name]) names

/-- Where a path leads whose last name need not exist: to a directory, or to a name in one. -/
inductive Target
  | directory (place : Place)
  | entry (place : Place)
  deriving DecidableEq

/-- The longest path below the base directory, in bytes. -/
def longestPath : Nat := 4063

/-- Why a path is refused before it is followed. -/
def refusal? (p : Path) : Option FileError :=
  if p.names.any fun name => '\x00' ∈ name.toList then some .nulInName
  else if longestPath < p.size then some .nameTooLong
  else none

/-- Follows a path up to its last name. -/
def locate (t : Tree) (p : Path) : Except FileError Target :=
  match refusal? p with
  | some e => .error e
  | none =>
    match p.ending, p.fileName? with
    | .dot, _ | _, none => (t.enter [] p.names).map .directory
    | _, some name =>
      match t.enter [] p.names.dropLast with
      | .error e => .error e
      | .ok place =>
        if longestName < name.utf8ByteSize then .error .nameTooLong
        else .ok (.entry (place ++ [name]))

/-- The content of a file. -/
def read (t : Tree) (p : Path) : Except FileError Content :=
  match t.locate p with
  | .error e => .error e
  | .ok (.directory _) => .error .isDirectory
  | .ok (.entry place) =>
    match t.find? place with
    | none => .error .notFound
    | some .directory => .error .isDirectory
    | some (.file content) => if p.ending = .plain then .ok content else .error .notDirectory

/-- What is wrong with a file that stands where a directory has to be. In the place of the last name
it exists already, and on the way it is no directory. When directories before it have just been
made, the ones after them are made one at a time, and the file is in the place of the last name of
one of them. A dot behind the last name passes through it. -/
def obstacle (made : Bool) (names : List String) (ending : PathEnding) : FileError :=
  match names, ending with
  | [], .dot => .notDirectory
  | [], _ => .fileExists
  | _ :: _, _ => if made then .fileExists else .notDirectory

/-- Follows names from a place that is a directory and makes those directories that are missing;
`made` tells whether some have been made already. The directory of the last name is not made if a
dot follows it, since then it has to be there. -/
def makeDirsFrom (t : Tree) (ending : PathEnding) (made : Bool) :
    Place → List String → Tree × Except FileError Unit
  | _, [] => (t, .ok ())
  | place, name :: names =>
    if name = Path.up then t.makeDirsFrom ending made place.dropLast names
    else if longestName < name.utf8ByteSize then (t, .error .nameTooLong)
    else
      match t.find? (place ++ [name]) with
      | some .directory => t.makeDirsFrom ending made (place ++ [name]) names
      | some (.file _) => (t, .error (obstacle made names ending))
      | none =>
        if names = [] ∧ ending = .dot then (t, .error .notFound)
        else (t.set (place ++ [name]) .directory).makeDirsFrom ending true (place ++ [name]) names

/-- Makes a directory and those on the way to it, unless they exist. What has been made stays even
if the directory itself cannot be made. -/
def makeDirs (t : Tree) (p : Path) : Tree × Except FileError Unit :=
  match refusal? p with
  | some e => (t, .error e)
  | none => t.makeDirsFrom p.ending false [] p.names

/-- Where a file can be written. -/
def writable (t : Tree) (p : Path) : Except FileError Place :=
  match t.locate p with
  | .error e => .error e
  | .ok (.directory _) => .error .isDirectory
  | .ok (.entry place) =>
    if p.ending ≠ .plain then .error .isDirectory
    else
      match t.find? place with
      | some .directory => .error .isDirectory
      | _ => .ok place

/-- Writes a file, whether or not there is one. -/
def write (t : Tree) (p : Path) (content : Content) : Except FileError Tree :=
  (t.writable p).map fun place => t.set place (.file content)

/-- Gives a file another name. A file that has the name is replaced. -/
def rename (t : Tree) (source target : Path) : Except FileError Tree :=
  match t.locate source, t.locate target with
  | .error e, _ | _, .error e => .error e
  | .ok (.directory _), _ | _, .ok (.directory _) => .error .busy
  | .ok (.entry old), .ok (.entry new) =>
    match t.find? old with
    | none => .error .notFound
    | some .directory => .error .isDirectory
    | some (.file content) =>
      if target.ending ≠ .plain then .error .notDirectory
      else if t.find? new = some .directory then .error .isDirectory
      else if old = new then .ok t
      else .ok ((t.erase old).set new (.file content))

/-- The tree afterwards, unless the file system refuses. -/
def orSame (t : Tree) : Except FileError Tree → Tree × Except FileError Unit
  | .ok t => (t, .ok ())
  | .error e => (t, .error e)

/-- Removes a file, or a directory with all that is in it. -/
def remove (t : Tree) (p : Path) : Except FileError Tree :=
  match t.locate p with
  | .error e => .error e
  | .ok (.directory _) => .error .busy
  | .ok (.entry place) =>
    match t.find? place with
    | none => .error .notFound
    | some _ => .ok (t.erase place)

/-- A change of the files that is made from outside. -/
inductive Change
  | makeDirs (p : Path)
  | remove (p : Path)
  | write (p : Path) (content : Content)
  deriving DecidableEq

/-- Makes a change. What has been made of it stays if it fails. -/
def change (t : Tree) : Change → Tree × Except FileError Unit
  | .makeDirs p => t.makeDirs p
  | .remove p => t.orSame (t.remove p)
  | .write p content => t.orSame (t.write p content)

/-- Everything in the tree by its path, in the order of the paths. -/
def listing (t : Tree) : List (String × Node) :=
  (t.nodes.map fun (place, node) => (String.intercalate "/" place, node)).mergeSort
    fun a b => decide (a.1 ≤ b.1)

/-! ## Looking up after a change -/

@[simp] theorem find?_set_self {t : Tree} {place : Place} {node : Node} (h : place ≠ []) :
    (t.set place node).find? place = some node := by
  simp [find?, set, h]

theorem find?_set_of_ne {t : Tree} {a b : Place} {node : Node} (h : b ≠ a) :
    (t.set a node).find? b = t.find? b := by
  by_cases hb : b = []
  · simp [find?, hb]
  · simp [find?, hb, set, lookup_assign_of_ne t.nodes h]

/-! ## What a change has done -/

theorem of_write {t t' : Tree} {p : Path} {content : Content} (h : t.write p content = .ok t') :
    ∃ place, t.locate p = .ok (.entry place) ∧ t.find? place ≠ some .directory ∧
      t' = t.set place (.file content) := by
  rw [write, writable] at h
  split at h
  · cases h
  · cases h
  · next place found =>
    split at h
    · cases h
    · split at h
      · cases h
      · next file => exact ⟨place, found, file, (Except.ok.inj h).symm⟩

theorem of_rename {t t' : Tree} {source target : Path} (h : t.rename source target = .ok t') :
    ∃ old new content, t.locate source = .ok (.entry old) ∧ t.locate target = .ok (.entry new) ∧
      t.find? old = some (.file content) ∧ target.ending = .plain ∧
      t.find? new ≠ some .directory ∧
      t' = if old = new then t else (t.erase old).set new (.file content) := by
  rw [rename] at h
  split at h
  · cases h
  · cases h
  · cases h
  · cases h
  · next old new found found' =>
    split at h
    · cases h
    · cases h
    · next content there =>
      split at h
      · cases h
      · next plain =>
        split at h
        · cases h
        · next noDirectory =>
          refine ⟨old, new, content, found, found', there,
            Decidable.not_not.1 plain, noDirectory, ?_⟩
          split at h
          · next same => rw [if_pos same, Except.ok.inj h]
          · next other => rw [if_neg other, Except.ok.inj h]

theorem of_remove {t t' : Tree} {p : Path} (h : t.remove p = .ok t') :
    ∃ place, t.locate p = .ok (.entry place) ∧ t' = t.erase place := by
  rw [remove] at h
  split at h
  · cases h
  · cases h
  · next place found =>
    split at h
    · cases h
    · exact ⟨place, found, (Except.ok.inj h).symm⟩

end Tree

end ChatClient
