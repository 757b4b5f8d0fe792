import ChatClient.Proofs.Files.Places
import Mathlib.Data.List.Induction
import Mathlib.Tactic.Common

/-!
# Everything is in a directory

In a file system nothing lies loose: where anything is, there is a directory above it. All changes
keep it so, those that are made from outside and those that a fault of the disk cuts off.

## Main definitions

* `Tree.WellFormed`

## Main results

* `WellFormed.above`: all that leads to anything are directories
* `WellFormed.change`, `Disk.wellFormed_run`: no change and no run of steps leaves anything without
  a directory
-/

namespace ChatClient

namespace Tree

variable {t t' : Tree}

/-- What is anywhere is in a directory. -/
def WellFormed (t : Tree) : Prop :=
  ∀ place name, (t.find? (place ++ [name])).isSome → t.find? place = some .directory

@[simp] theorem find?_nil (t : Tree) : t.find? [] = some .directory := by simp [find?]

/-- It is enough to look at what is listed. -/
theorem wellFormed_of_nodes
    (h : ∀ entry ∈ t.nodes, t.find? entry.1.dropLast = some .directory) : t.WellFormed := by
  intro place name there
  simp only [find?, List.concat_ne_nil, if_false, Option.isSome_iff_exists] at there
  obtain ⟨node, found⟩ := there
  obtain ⟨before, after, listed, -⟩ := List.lookup_eq_some_iff.1 found
  simpa using h (place ++ [name], node) (by simp [listed])

/-- What is erased cannot be found. -/
theorem find?_erase_inside {a b : Place} (h : a <+: b) (below : b ≠ []) :
    (t.erase a).find? b = none := by
  simp only [find?, below, if_false, erase, List.lookup_eq_none_iff, List.mem_filter]
  rintro entry ⟨-, outside⟩
  rw [bne_iff_ne]
  rintro rfl
  simp [List.isPrefixOf_iff_prefix.2 h] at outside

namespace WellFormed

variable (ordered : t.WellFormed)
include ordered

/-- Whatever leads to a place where anything is, is a directory. -/
theorem above {a b : Place} (inside : a <+: b) (other : a ≠ b) (there : (t.find? b).isSome) :
    t.find? a = some .directory := by
  induction b using List.reverseRecOn with
  | nil => exact absurd (List.prefix_nil.1 inside) other
  | append_singleton b name ih =>
    have directory := ordered b name there
    rcases List.prefix_concat_iff.1 inside with same | inside
    · exact absurd same other
    · by_cases here : a = b
      · rw [here, directory]
      · exact ih inside here (by simp [directory])

/-- One step back from a place where anything is there is a directory. -/
theorem find?_dropLast {place : Place} (there : (t.find? place).isSome) :
    t.find? place.dropLast = some .directory := by
  by_cases root : place = []
  · simp [root]
  · rw [← List.dropLast_concat_getLast root] at there
    exact ordered _ _ there

private theorem find?_of_enter {place place' : Place} {names : List String}
    (start : t.find? place = some .directory) (h : t.enter place names = .ok place') :
    t.find? place' = some .directory := by
  induction names generalizing place with
  | nil => rw [← Except.ok.inj h, start]
  | cons name names ih =>
    rcases enter_cons_eq_ok_iff.1 h with ⟨-, h⟩ | ⟨-, -, found, h⟩
    · exact ih (ordered.find?_dropLast (by simp [start])) h
    · exact ih found h

/-- Names that could be followed in another tree can be followed in this one, if they do not lead
back up and there is a directory where they lead. -/
theorem enter_of_enter {place place' : Place} {names : List String} (straight : Path.up ∉ names)
    (h : t'.enter place names = .ok place') (there : t.find? place' = some .directory) :
    t.enter place names = .ok place' := by
  induction names generalizing place with
  | nil => exact h
  | cons name names ih =>
    have here := follow_of_enter h
    rw [Path.follow_of_not_mem straight] at here
    have inside : place ++ [name] <+: place' := ⟨names, by simp [here]⟩
    have found : t.find? (place ++ [name]) = some .directory := by
      by_cases last : place ++ [name] = place'
      · rw [last, there]
      · exact ordered.above inside last (by simp [there])
    rw [enter_cons_eq_ok_iff] at h ⊢
    rcases h with ⟨back, -⟩ | ⟨down, short, -, h⟩
    · simp [back] at straight
    · exact .inr ⟨down, short, found, ih (fun later => straight (List.mem_cons_of_mem _ later)) h⟩

/-! ## Changes -/

/-- A node may be put into a directory, unless it takes the place of another directory. -/
theorem set {place : Place} {name : String} {node : Node}
    (inside : t.find? place = some .directory)
    (keeps : t.find? (place ++ [name]) = some .directory → node = .directory) :
    (t.set (place ++ [name]) node).WellFormed := by
  intro place' name' there
  by_cases here : place' = place ++ [name]
  · subst here
    have below : (t.find? (place ++ [name] ++ [name'])).isSome := by
      rwa [find?_set_of_ne (by simp)] at there
    rw [find?_set_self (by simp), keeps (ordered _ _ below)]
  · rw [find?_set_of_ne here]
    by_cases new : place' ++ [name'] = place ++ [name]
    · rw [(List.append_inj' new rfl).1, inside]
    · rw [find?_set_of_ne new] at there
      exact ordered _ _ there

/-- With a place all that lies below it is gone. -/
theorem erase (a : Place) : (t.erase a).WellFormed := by
  intro place name there
  have outside : ¬ a <+: place ++ [name] := by
    intro inside
    simp [find?_erase_inside inside] at there
  rw [find?_erase outside] at there
  rw [find?_erase fun inside => outside (inside.trans (List.prefix_append ..))]
  exact ordered _ _ there

/-- A directory is made in one that is there. -/
theorem makeDirsFrom {ending : PathEnding} {made : Bool} {place : Place} {names : List String}
    (start : t.find? place = some .directory) :
    (t.makeDirsFrom ending made place names).1.WellFormed := by
  induction names generalizing t made place with
  | nil => exact ordered
  | cons name names ih =>
    rw [Tree.makeDirsFrom]
    split
    · exact ih ordered (ordered.find?_dropLast (by simp [start]))
    · split
      · exact ordered
      · split
        · next found => exact ih ordered found
        · exact ordered
        · split
          · exact ordered
          · exact ih (ordered.set start fun _ => rfl) (find?_set_self (by simp))

/-- So it is with all directories on the way. -/
theorem makeDirs (p : Path) : (t.makeDirs p).1.WellFormed := by
  rw [Tree.makeDirs]
  split
  · exact ordered
  · exact ordered.makeDirsFrom (find?_nil t)

/-- A path leads to a name in a directory. -/
theorem of_locate {p : Path} {place : Place} (h : t.locate p = .ok (.entry place)) :
    ∃ dir name, place = dir ++ [name] ∧ t.find? dir = some .directory := by
  obtain ⟨-, -, name, dir, -, enters, -, rfl⟩ := locate_eq_entry_iff.1 h
  exact ⟨dir, name, rfl, ordered.find?_of_enter (find?_nil t) enters⟩

/-- A file is written in a directory that is there. -/
theorem write {p : Path} {content : Content} (h : t.write p content = .ok t') : t'.WellFormed := by
  obtain ⟨place, found, noDirectory, rfl⟩ := of_write h
  obtain ⟨dir, name, rfl, directory⟩ := ordered.of_locate found
  exact ordered.set directory fun there => absurd there noDirectory

/-- A file is moved into a directory that is there. -/
theorem rename {source target : Path} (h : t.rename source target = .ok t') : t'.WellFormed := by
  obtain ⟨old, new, content, -, found, there, -, noDirectory, rfl⟩ := of_rename h
  split
  · exact ordered
  · obtain ⟨dir, name, rfl, directory⟩ := ordered.of_locate found
    -- What was a file has nothing below it, so that it is not in the way to the new place.
    have outside : ¬ old <+: dir := by
      intro inside
      by_cases same : old = dir
      · simp [same, directory] at there
      · simp [ordered.above inside same (by simp [directory])] at there
    refine (ordered.erase old).set ?_ fun found => ?_
    · rwa [find?_erase outside]
    · by_cases inside : old <+: dir ++ [name]
      · simp [find?_erase_inside inside] at found
      · rw [find?_erase inside] at found
        exact absurd found noDirectory

/-- Only a file or an empty directory is removed. -/
theorem remove {p : Path} (h : t.remove p = .ok t') : t'.WellFormed := by
  obtain ⟨place, -, rfl⟩ := of_remove h
  exact ordered.erase place

/-- A step that fails leaves the tree as it is. -/
theorem orSame {outcome : Except FileError Tree} (h : ∀ t', outcome = .ok t' → t'.WellFormed) :
    (t.orSame outcome).1.WellFormed := by
  cases outcome with
  | ok t' => exact h t' rfl
  | error e => exact ordered

/-- No change from outside leaves anything without a directory. -/
theorem change (c : Change) : (t.change c).1.WellFormed := by
  cases c with
  | makeDirs p => exact ordered.makeDirs p
  | remove p => exact ordered.orSame fun _ => ordered.remove
  | write p content => exact ordered.orSame fun _ => ordered.write

/-- So the tree is well formed after every step. -/
theorem perform (step : FileStep) : (t.perform step).1.WellFormed := by
  cases step with
  | makeDirs p => exact ordered.makeDirs p
  | write p content => exact ordered.orSame fun _ => ordered.write
  | rename source target => exact ordered.orSame fun _ => ordered.rename

/-- It is also after a step in the middle of which everything has stopped. -/
theorem tear (kept : Nat) (step : FileStep) : (t.tear kept step).WellFormed := by
  cases step with
  | makeDirs p => exact ordered
  | write p content => exact ordered.orSame fun _ => ordered.write
  | rename source target => exact ordered

end WellFormed

end Tree

namespace Disk

/-- A step meets a fault and is cut off, or it is done. -/
theorem perform_cases (d : Disk) (step : FileStep) :
    (∃ kept faults e, d.perform step = (⟨d.tree.tear kept step, faults⟩, .error e)) ∨
      ∃ faults, d.perform step = (⟨(d.tree.perform step).1, faults⟩, (d.tree.perform step).2) := by
  rw [perform]
  split
  · next fault faults _ => exact .inl ⟨fault.kept, faults, fault.error, rfl⟩
  · next faults _ => exact .inr ⟨faults, rfl⟩
  · exact .inr ⟨[], rfl⟩

private theorem wellFormed_perform {d : Disk} (ordered : d.tree.WellFormed) (step : FileStep) :
    (d.perform step).1.tree.WellFormed := by
  rcases perform_cases d step with ⟨kept, faults, e, torn⟩ | ⟨faults, done⟩
  · rw [torn]
    exact ordered.tear kept step
  · rw [done]
    exact ordered.perform step

/-- Nor does a run of steps, wherever it is cut off. -/
theorem wellFormed_run {d : Disk} (ordered : d.tree.WellFormed) (steps : List FileStep) :
    (d.run steps).1.tree.WellFormed := by
  induction steps generalizing d with
  | nil => exact ordered
  | cons step steps ih =>
    have next_ := wellFormed_perform ordered step
    rw [run]
    split
    · next d' done =>
      rw [done] at next_
      exact ih next_
    · next d' e failed =>
      rw [failed] at next_
      exact next_

end Disk

end ChatClient
