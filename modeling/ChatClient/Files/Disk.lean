import ChatClient.Files.Tree

/-!
# Changing what is on disk, step by step

A change of files is planned as a list of steps. The steps are done one after the other until one of
them fails. Beside the refusals of the file system a step can meet a fault of the disk, which comes
from nowhere; a file that is being written then keeps some of its first bytes.

## Main definitions

* `FileStep`, `Tree.perform`: one step
* `Disk`, `Disk.perform`: one step on a disk that may have faults
* `Disk.run`: a list of steps
-/

namespace ChatClient

/-- One step of a change. -/
inductive FileStep
  | makeDirs (p : Path)
  | write (p : Path) (content : Content)
  | rename (source target : Path)
  deriving DecidableEq

/-- A failure that is not the fault of the step. -/
structure Fault where
  error : FileError
  /-- How many bytes of a file are written in spite of it. -/
  kept : Nat
  deriving DecidableEq

namespace Tree

/-- Does one step. -/
def perform (t : Tree) : FileStep → Tree × Except FileError Unit
  | .makeDirs p => t.makeDirs p
  | .write p content => t.orSame (t.write p content)
  | .rename source target => t.orSame (t.rename source target)

/-- What a step leaves behind that is cut off in the middle. A file that was being written holds the
first `kept` bytes of what it should hold; the other steps are done as a whole or not at all. -/
def tear (t : Tree) (kept : Nat) : FileStep → Tree
  | .makeDirs _ => t
  | .write p content => (t.orSame (t.write p (content.take kept))).1
  | .rename _ _ => t

end Tree

/-- A tree on a disk, with the faults that the coming steps will meet. Steps after these meet
none. -/
structure Disk where
  tree : Tree := {}
  faults : List (Option Fault) := []

namespace Disk

/-- Does one step. -/
def perform (d : Disk) (step : FileStep) : Disk × Except FileError Unit :=
  match d.faults with
  | some fault :: faults => (⟨d.tree.tear fault.kept step, faults⟩, .error fault.error)
  | none :: faults =>
    let (tree, outcome) := d.tree.perform step
    (⟨tree, faults⟩, outcome)
  | [] =>
    let (tree, outcome) := d.tree.perform step
    (⟨tree, []⟩, outcome)

/-- Does the steps in their order until one of them fails. -/
def run (d : Disk) : List FileStep → Disk × Except FileError Unit
  | [] => (d, .ok ())
  | step :: steps =>
    match d.perform step with
    | (d, .ok ()) => d.run steps
    | (d, .error e) => (d, .error e)

end Disk

end ChatClient
