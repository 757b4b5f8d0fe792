import ChatClient.Proofs.Files.WellFormed
import Mathlib.Tactic.Common

/-!
# Rewriting a file by way of another one

To rewrite a file, the directories on the way to it are made, its new content is written to a
temporary file beside it, and that file takes its name. Until the last step the file is spared: its
content is what it was, however the steps fail. The last step is done as a whole or not at all, and
after it the file has its new content.

## Main definitions

* `Tree.Spares`: a step has spared the file of a path
* `Tree.Untouched`: what a reader of the path can say about that

## Main results

* `spares_makeDirs`, `spares_write`: the steps before the last one spare the file
* `Spares.untouched`: a file that was spared is untouched
* `read_of_rename`: the last step gives it its new content
* `run_rewrite`: all of them together on a disk that may have faults
-/

namespace ChatClient

/-! ## The temporary file -/

namespace Path

variable {p : Path}

/-- A path that ends in no file is its own temporary one. -/
theorem exists_fileName? (different : p.temporary.names ≠ p.names) :
    ∃ name, p.fileName? = some name := by
  cases file : p.fileName? with
  | some name => exact ⟨name, rfl⟩
  | none => exact absurd (by rw [temporary, file]) different

/-- The temporary file is in the same directory. -/
theorem dropLast_temporary {name : String} (file : p.fileName? = some name) :
    p.temporary.names.dropLast = p.names.dropLast := by
  rw [temporary, file]
  exact List.dropLast_concat

/-- It is at another place, if it is at a place of its own at all. -/
theorem place_temporary (different : p.temporary.names ≠ p.names) {name : String}
    (file : p.temporary.fileName? = some name) :
    p.temporary.place ≠ p.place ∧ ¬ p.temporary.place <+: p.place ∧ p.temporary.place ≠ [] := by
  obtain ⟨own, file'⟩ := exists_fileName? different
  have names : own ≠ name := by
    rintro rfl
    apply different
    rw [(names_of_fileName? file).1, (names_of_fileName? file').1, dropLast_temporary file']
  have places : p.temporary.place ≠ p.place := by
    rw [place_of_fileName? file, place_of_fileName? file', dropLast_temporary file']
    simpa using Ne.symm names
  refine ⟨places, fun inside => places ?_, ?_⟩
  · apply inside.eq_of_length
    rw [place_of_fileName? file, place_of_fileName? file', dropLast_temporary file']
    simp
  · simp [place_of_fileName? file]

end Path

namespace Tree

variable {t t' : Tree} {p : Path}

/-- The file of the path is spared: there is the same at its place, but for a directory where
nothing was, and where its directory could be entered it still can. -/
structure Spares (p : Path) (t t' : Tree) : Prop where
  find? : t'.find? p.place = t.find? p.place ∨
    (t.find? p.place = none ∧ t'.find? p.place = some .directory)
  enter : ∀ dir, t.enter [] p.names.dropLast = .ok dir →
    t'.enter [] p.names.dropLast = .ok dir ∧ t'.find? p.place = t.find? p.place

theorem Spares.refl (p : Path) (t : Tree) : Spares p t t :=
  ⟨.inl rfl, fun _ enters => ⟨enters, rfl⟩⟩

/-- What is spared twice is spared. -/
theorem Spares.trans {t'' : Tree} (h : Spares p t t') (h' : Spares p t' t'') : Spares p t t'' where
  find? := by
    rcases h'.find? with same' | ⟨none', directory⟩
    · rw [same']
      exact h.find?
    · rcases h.find? with same | ⟨-, directory'⟩
      · exact .inr ⟨same ▸ none', directory⟩
      · simp [none'] at directory'
  enter dir enters := by
    obtain ⟨enters', same⟩ := h.enter dir enters
    obtain ⟨enters'', same'⟩ := h'.enter dir enters'
    exact ⟨enters'', same'.trans same⟩

/-- A file that is spared holds what it held. -/
theorem Spares.contentAt (h : Spares p t t') : t'.contentAt p = t.contentAt p := by
  rw [Tree.contentAt, Tree.contentAt]
  rcases h.find? with same | ⟨nothing, directory⟩
  · rw [same]
  · rw [nothing, directory]

/-! ### Reading a file that was spared -/

section Reading

variable (h : Spares p t t') {content : Content}
include h

/-- What could be read still can. -/
theorem Spares.read_of_read (before : t.read p = .ok content) : t'.read p = .ok content := by
  obtain ⟨name, file⟩ := fileName?_of_read before
  obtain ⟨enters, same⟩ := h.enter _ (contentAt_of_read before).2
  rw [read_congr file (contentAt_of_read before).2 enters same, before]

/-- What can be read could be before, if the directory of the path could be entered. -/
theorem Spares.read_back {dir : Place} (enters : t.enter [] p.names.dropLast = .ok dir)
    (after : t'.read p = .ok content) : t.read p = .ok content := by
  obtain ⟨name, file⟩ := fileName?_of_read after
  obtain ⟨enters', same⟩ := h.enter dir enters
  rw [← read_congr file enters enters' same, after]

/-- A path that does not lead back up goes through directories in which something is, so that they
were there before. -/
theorem Spares.enter_back (ordered : t.WellFormed) (straight : Path.up ∉ p.names)
    (after : t'.read p = .ok content) :
    t.enter [] p.names.dropLast = .ok p.place.dropLast := by
  obtain ⟨there, enters⟩ := contentAt_of_read after
  rw [h.contentAt] at there
  have found : (t.find? p.place).isSome := by
    by_contra nothing
    simp [Tree.contentAt, Option.not_isSome_iff_eq_none.1 nothing] at there
  exact ordered.enter_of_enter (fun back => straight (List.dropLast_subset _ back)) enters
    (ordered.find?_dropLast found)

end Reading

/-- The content at the place of the path is what it was, and so is what can be read there. Only a
path that leads out of a missing directory by `..` cannot be read, whatever is at its place, and can
be when the directory is made. -/
structure Untouched (p : Path) (t t' : Tree) : Prop where
  contentAt : t'.contentAt p = t.contentAt p
  read : (t'.read p).toOption = (t.read p).toOption ∨
    (Path.up ∈ p.names ∧ (∀ dir, t.enter [] p.parent.names ≠ .ok dir) ∧
      (t'.read p).toOption = t.contentAt p)

/-- A file that was spared is untouched in the eyes of a reader. -/
theorem Spares.untouched (h : Spares p t t') (ordered : t.WellFormed) : Untouched p t t' where
  contentAt := h.contentAt
  read := by
    cases after : t'.read p with
    | error e =>
      cases before : t.read p with
      | error e' => exact .inl rfl
      | ok content => simp [h.read_of_read before] at after
    | ok content =>
      by_cases entered : ∃ dir, t.enter [] p.parent.names = .ok dir
      · obtain ⟨dir, enters⟩ := entered
        exact .inl (by rw [h.read_back enters after])
      · have leads : Path.up ∈ p.names := by
          by_contra straight
          exact entered ⟨_, h.enter_back ordered straight after⟩
        refine .inr ⟨leads, fun dir enters => entered ⟨dir, enters⟩, ?_⟩
        rw [← h.contentAt, (contentAt_of_read after).1]
        rfl

/-! ## Making directories -/

/-- Directories that are there are not made again. -/
theorem makeDirsFrom_of_enter {ending : PathEnding} {made : Bool} {place place' : Place}
    {names : List String} (h : t.enter place names = .ok place') :
    t.makeDirsFrom ending made place names = (t, .ok ()) := by
  induction names generalizing place with
  | nil => rfl
  | cons name names ih =>
    rw [makeDirsFrom]
    rcases enter_cons_eq_ok_iff.1 h with ⟨back, h⟩ | ⟨down, short, found, h⟩
    · rw [if_pos back]
      exact ih h
    · rw [if_neg down, if_neg short, found]
      exact ih h

/-- Where anything was it is still there, and where nothing was there may be a directory. -/
theorem find?_makeDirsFrom (t : Tree) (ending : PathEnding) (made : Bool) (place : Place)
    (names : List String) (a : Place) :
    (t.makeDirsFrom ending made place names).1.find? a = t.find? a ∨
      (t.find? a = none ∧
        (t.makeDirsFrom ending made place names).1.find? a = some .directory) := by
  induction names generalizing t made place with
  | nil => exact .inl rfl
  | cons name names ih =>
    rw [makeDirsFrom]
    split
    · exact ih t made _
    · split
      · exact .inl rfl
      · split
        · exact ih t made _
        · exact .inl rfl
        · next nothing =>
          split
          · exact .inl rfl
          · have set := ih (t.set (place ++ [name]) .directory) true (place ++ [name])
            -- Where the new directory stands there was nothing. Elsewhere it makes no difference.
            by_cases here : a = place ++ [name]
            · subst here
              rw [find?_set_self (by simp)] at set
              rcases set with same | ⟨none_, -⟩
              · exact .inr ⟨nothing, same⟩
              · simp at none_
            · rwa [find?_set_of_ne here] at set

/-- To make directories touches no file. -/
theorem spares_makeDirs (t : Tree) (p : Path) : Spares p t (t.makeDirs p.parent).1 := by
  rw [makeDirs]
  split
  · exact .refl p t
  · refine ⟨find?_makeDirsFrom .., fun dir enters => ?_⟩
    have same : t.makeDirsFrom p.parent.ending false [] p.parent.names = (t, .ok ()) :=
      makeDirsFrom_of_enter enters
    rw [same]
    exact ⟨enters, rfl⟩

/-! ## Writing -/

/-- Writing the temporary file spares the file itself. -/
theorem spares_write (different : p.temporary.names ≠ p.names) {content : Content}
    (h : t.write p.temporary content = .ok t') :
    Spares p t t' ∧ t'.find? p.temporary.place = some (.file content) := by
  obtain ⟨place, found, noDirectory, rfl⟩ := of_write h
  obtain ⟨rfl, -⟩ := eq_place_of_locate found
  obtain ⟨-, -, name, -, file, -⟩ := locate_eq_entry_iff.1 found
  obtain ⟨places, -, nonempty⟩ := Path.place_temporary different file
  have same : (t.set p.temporary.place (.file content)).find? p.place = t.find? p.place :=
    find?_set_of_ne places.symm
  exact ⟨⟨.inl same, fun dir enters => ⟨enter_set noDirectory enters, same⟩⟩,
    find?_set_self nonempty⟩

/-- So does trying to. -/
theorem spares_orSame_write (different : p.temporary.names ≠ p.names) (t : Tree)
    (content : Content) :
    Spares p t (t.orSame (t.write p.temporary content)).1 := by
  cases written : t.write p.temporary content with
  | ok t' => exact (spares_write different written).1
  | error e => exact .refl p t

/-! ## Taking the name -/

/-- The file that takes the name of another one is read under it. -/
theorem read_of_rename (different : p.temporary.names ≠ p.names) {content : Content}
    (there : t.find? p.temporary.place = some (.file content))
    (h : t.rename p.temporary p = .ok t') : t'.read p = .ok content := by
  obtain ⟨old, new, content', found, found', there', plain, noDirectory, rfl⟩ := of_rename h
  obtain ⟨rfl, -⟩ := eq_place_of_locate found
  obtain ⟨rfl, enters⟩ := eq_place_of_locate found'
  obtain rfl : content' = content := by simpa [there] using there'.symm
  obtain ⟨-, -, name, -, file, -⟩ := locate_eq_entry_iff.1 found
  obtain ⟨places, outside, -⟩ := Path.place_temporary different file
  obtain ⟨accepted, noDot, own, dir, file', enters', short, here⟩ := locate_eq_entry_iff.1 found'
  have enters'' : ((t.erase p.temporary.place).set p.place (.file content')).enter []
      p.names.dropLast = .ok dir := by
    refine enter_set ?_ (enter_erase (by simp [there]) ?_ enters')
    · rwa [find?_erase outside]
    · exact fun inside => outside (inside.trans (by simp))
  have located := locate_eq_entry_iff.2 ⟨accepted, noDot, own, dir, file', enters'', short, here⟩
  rw [if_neg places, read, located]
  simp [find?_set_self (show p.place ≠ [] by simp [here]), plain]

end Tree

/-! ## All steps -/

namespace Disk

variable {p : Path}

/-- Steps are made until one of them fails. -/
theorem run_cons (d : Disk) (step : FileStep) (steps : List FileStep) :
    (∃ d', d.perform step = (d', .ok ()) ∧ d.run (step :: steps) = d'.run steps) ∨
      ∃ d' e, d.perform step = (d', .error e) ∧ d.run (step :: steps) = (d', .error e) := by
  rw [run]
  split
  · next d' done => exact .inl ⟨d', done, rfl⟩
  · next d' e failed => exact .inr ⟨d', e, failed, rfl⟩

private theorem spares_perform_makeDirs (p : Path) (d : Disk) :
    Tree.Spares p d.tree (d.perform (.makeDirs p.parent)).1.tree := by
  rcases perform_cases d (.makeDirs p.parent) with ⟨kept, faults, e, torn⟩ | ⟨faults, done⟩
  · rw [torn]
    exact .refl p d.tree
  · rw [done]
    exact Tree.spares_makeDirs d.tree p

private theorem spares_perform_write (different : p.temporary.names ≠ p.names) (content : Content)
    (d : Disk) :
    Tree.Spares p d.tree (d.perform (.write p.temporary content)).1.tree ∧
      ((d.perform (.write p.temporary content)).2 = .ok () →
        (d.perform (.write p.temporary content)).1.tree.find? p.temporary.place =
          some (.file content)) := by
  -- A file that was cut off is a file that was written, with less in it.
  have spares := Tree.spares_orSame_write different d.tree
  rcases perform_cases d (.write p.temporary content) with ⟨kept, faults, e, torn⟩ | ⟨faults, done⟩
  · rw [torn]
    exact ⟨spares (content.take kept), fun h => by cases h⟩
  · rw [done]
    refine ⟨spares content, fun ok => ?_⟩
    rw [Tree.perform] at ok ⊢
    cases written : d.tree.write p.temporary content with
    | ok t => exact (Tree.spares_write different written).2
    | error e => simp [Tree.orSame, written] at ok

/-- Taking the name is done as a whole or not at all. -/
theorem perform_rename_cases (different : p.temporary.names ≠ p.names) {content : Content}
    {d : Disk} (there : d.tree.find? p.temporary.place = some (.file content)) :
    (∃ d', d.perform (.rename p.temporary p) = (d', .ok ()) ∧ d'.tree.read p = .ok content) ∨
      ∃ d' e, d.perform (.rename p.temporary p) = (d', .error e) ∧ d'.tree = d.tree := by
  rcases perform_cases d (.rename p.temporary p) with ⟨kept, faults, e, torn⟩ | ⟨faults, done⟩
  · exact .inr ⟨_, e, torn, rfl⟩
  · rw [Tree.perform] at done
    cases renamed : d.tree.rename p.temporary p with
    | ok t =>
      rw [renamed] at done
      exact .inl ⟨_, done, Tree.read_of_rename different there renamed⟩
    | error e =>
      rw [renamed] at done
      exact .inr ⟨_, e, done, rfl⟩

/-- Rewriting the file succeeds and the file has its new content, or it fails and the file is
spared, whatever faults the disk has. -/
theorem run_rewrite (different : p.temporary.names ≠ p.names) (content : Content) (d : Disk) :
    (∃ d', d.run [.makeDirs p.parent, .write p.temporary content, .rename p.temporary p] =
        (d', .ok ()) ∧ d'.tree.read p = .ok content) ∨
      ∃ d' e, d.run [.makeDirs p.parent, .write p.temporary content, .rename p.temporary p] =
        (d', .error e) ∧ Tree.Spares p d.tree d'.tree := by
  -- The file itself is not touched before the last command, so each of the others may fail.
  have spared := spares_perform_makeDirs p d
  rcases run_cons d (.makeDirs p.parent) _ with ⟨d₁, made, rest⟩ | ⟨d₁, e, failed, rest⟩
  case inr =>
    rw [failed] at spared
    exact .inr ⟨d₁, e, rest, spared⟩
  rw [made] at spared
  have spared' := spares_perform_write different content d₁
  rcases run_cons d₁ (.write p.temporary content) _ with
    ⟨d₂, written, rest'⟩ | ⟨d₂, e, failed, rest'⟩
  case inr =>
    rw [failed] at spared'
    exact .inr ⟨d₂, e, rest.trans rest', spared.trans spared'.1⟩
  rw [written] at spared'
  have whole := spared.trans spared'.1
  rcases perform_rename_cases different (spared'.2 rfl) with
    ⟨d₃, renamed, read⟩ | ⟨d₃, e, failed, same⟩
  · exact .inl ⟨d₃, rest.trans (rest'.trans (by simp only [run, renamed])), read⟩
  · exact .inr ⟨d₃, e, rest.trans (rest'.trans (by simp only [run, failed])), same ▸ whole⟩

end Disk

end ChatClient
