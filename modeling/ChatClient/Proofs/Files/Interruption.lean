import ChatClient.Proofs.Files.Rewriting
import Mathlib.Tactic.Common

/-!
# When the program dies while it rewrites a file

The steps of a plan take time, and the program may die between two of them or in the middle of one.
Some of the directories on a path have been made then, or a file has the first bytes of what it was
to hold. To take a name is the one step that cannot be cut in two, so that it decides: before it the
file of the path is spared, after it the file has its new content.

All of this rests on the temporary file being another one. A path whose temporary file is the file
itself is written in place, and whatever part of its new content had been written is what remains.

## Main definitions

* `Tree.cutOff`: the tree when a step is cut off in the middle
* `Tree.DiesIn`: what can be on disk when the program dies while it follows a plan

## Main results

* `makeDirsFrom_again`: directories that were made in part can be made again
* `spares_or_read_of_diesIn`: the file is spared or has its new content
* `Rewrites.exists_diesIn_of_same`: a file that is written in place may be left with any part of its
  new content
* `Rewrites.read_whole`: a plan that was followed to its end gives the file its new content
-/

namespace ChatClient

namespace Tree

variable {t t' : Tree} {p : Path}

/-- The tree when a step is cut off. Directories are made one after the other, so that those for the
first `n` names may be there; a file that was being written holds the first `n` bytes; and a name is
taken as a whole or not at all. -/
def cutOff (t : Tree) (n : Nat) : FileStep → Tree
  | .makeDirs p =>
    if (refusal? p).isSome then t else (t.makeDirsFrom p.ending false [] (p.names.take n)).1
  | .write p content => (t.orSame (t.write p (content.take n))).1
  | .rename _ _ => t

/-- What can be on disk when the program dies while it follows a plan. -/
inductive DiesIn : Tree → List FileStep → Tree → Prop
  | between (t : Tree) (steps : List FileStep) : DiesIn t steps t
  | amid (t : Tree) (n : Nat) (step : FileStep) (steps : List FileStep) :
      DiesIn t (step :: steps) (t.cutOff n step)
  | later {t t' t'' : Tree} {step : FileStep} {steps : List FileStep}
      (done : t.perform step = (t', .ok ())) (dies : DiesIn t' steps t'') :
      DiesIn t (step :: steps) t''

/-- The steps that give a file new content. -/
def rewriting (p : Path) (content : Content) : List FileStep :=
  [.makeDirs p.parent, .write p.temporary content, .rename p.temporary p]

private theorem perform_write_eq_ok_iff {content : Content} :
    t.perform (.write p content) = (t', .ok ()) ↔ t.write p content = .ok t' := by
  rw [perform]
  cases t.write p content <;> simp [orSame]

private theorem perform_rename_eq_ok_iff {source : Path} :
    t.perform (.rename source p) = (t', .ok ()) ↔ t.rename source p = .ok t' := by
  rw [perform]
  cases t.rename source p <;> simp [orSame]

/-- Whether a file can be written does not depend on what is written. -/
theorem write_of_write {content : Content} (h : t.write p content = .ok t') (content' : Content) :
    ∃ t'', t.write p content' = .ok t'' := by
  rw [write] at h ⊢
  cases at_ : t.writable p with
  | error e => simp [at_, Except.map] at h
  | ok place => exact ⟨_, rfl⟩

/-! ## Directories that were made in part -/

section Making

variable {made : Bool} {place : Place} {names : List String}

/-- Making directories succeeds one name after the other: the name leads back up, or to a directory
that is there or is made. -/
theorem makeDirsFrom_cons_eq_ok_iff {name : String} :
    t.makeDirsFrom .plain made place (name :: names) = (t', .ok ()) ↔
      (name = Path.up ∧ t.makeDirsFrom .plain made place.dropLast names = (t', .ok ())) ∨
        (name ≠ Path.up ∧ ¬ longestName < name.utf8ByteSize ∧
          ((t.find? (place ++ [name]) = some .directory ∧
              t.makeDirsFrom .plain made (place ++ [name]) names = (t', .ok ())) ∨
            (t.find? (place ++ [name]) = none ∧
              (t.set (place ++ [name]) .directory).makeDirsFrom .plain true (place ++ [name])
                names = (t', .ok ())))) := by
  rw [makeDirsFrom]
  by_cases back : name = Path.up
  · simp [back]
  · by_cases long : longestName < name.utf8ByteSize
    · simp [back, long]
    · rw [if_neg back, if_neg long]
      cases found : t.find? (place ++ [name]) with
      | none => simp [back, long]
      | some node => cases node <;> simp [back, long]

/-- Before directories are made that can be made, those on the way are there or missing. -/
theorem enter_of_makeDirsFrom (h : t.makeDirsFrom .plain made place names = (t', .ok ())) :
    (∃ dir, t.enter place names = .ok dir) ∨ t.enter place names = .error .notFound := by
  induction names generalizing place with
  | nil => exact .inl ⟨place, rfl⟩
  | cons name names ih =>
    rw [enter]
    rcases makeDirsFrom_cons_eq_ok_iff.1 h with ⟨back, h⟩ | ⟨down, short, ⟨found, h⟩ | ⟨nothing, -⟩⟩
    · rw [if_pos back]
      exact ih h
    · rw [if_neg down, if_neg short, found]
      exact ih h
    · rw [if_neg down, if_neg short, nothing]
      exact .inr rfl

/-- A directory stays one while others are made. -/
theorem find?_of_makeDirsFrom {ending : PathEnding} {outcome : Except FileError Unit}
    (h : t.makeDirsFrom ending made place names = (t', outcome)) {a : Place}
    (directory : t.find? a = some .directory) : t'.find? a = some .directory := by
  have after := find?_makeDirsFrom t ending made place names a
  rw [h] at after
  rcases after with same | ⟨nothing, -⟩
  · rw [same, directory]
  · simp [directory] at nothing

/-- Afterwards they are there. -/
theorem enter_makeDirsFrom (h : t.makeDirsFrom .plain made place names = (t', .ok ())) :
    ∃ dir, t'.enter place names = .ok dir := by
  induction names generalizing t made place with
  | nil => exact ⟨place, rfl⟩
  | cons name names ih =>
    rcases makeDirsFrom_cons_eq_ok_iff.1 h with ⟨back, h⟩ | ⟨down, short, ⟨found, h⟩ | ⟨-, h⟩⟩
    · obtain ⟨dir, enters⟩ := ih h
      exact ⟨dir, enter_cons_eq_ok_iff.2 (.inl ⟨back, enters⟩)⟩
    · obtain ⟨dir, enters⟩ := ih h
      have there : t'.find? (place ++ [name]) = some .directory := find?_of_makeDirsFrom h found
      exact ⟨dir, enter_cons_eq_ok_iff.2 (.inr ⟨down, short, there, enters⟩)⟩
    · obtain ⟨dir, enters⟩ := ih h
      have there : t'.find? (place ++ [name]) = some .directory :=
        find?_of_makeDirsFrom h (find?_set_self (by simp))
      exact ⟨dir, enter_cons_eq_ok_iff.2 (.inr ⟨down, short, there, enters⟩)⟩

/-- Directories that can be made can still be made when those for the first names have been, and in
the end the same ones are there. -/
theorem makeDirsFrom_again (h : t.makeDirsFrom .plain made place names = (t', .ok ())) (n : Nat)
    (made' : Bool) :
    (t.makeDirsFrom .plain made place (names.take n)).1.makeDirsFrom .plain made' place names =
      (t', .ok ()) := by
  induction names generalizing t made made' place n with
  | nil => simpa [makeDirsFrom] using h
  | cons name names ih =>
    rw [makeDirsFrom_cons_eq_ok_iff] at h ⊢
    cases n with
    | zero =>
      -- Nothing has been made yet, and only the choice of an error could tell a difference.
      rcases h with ⟨back, h⟩ | ⟨down, short, ⟨found, h⟩ | ⟨nothing, h⟩⟩
      · exact .inl ⟨back, ih h 0 made'⟩
      · exact .inr ⟨down, short, .inl ⟨found, ih h 0 made'⟩⟩
      · exact .inr ⟨down, short, .inr ⟨nothing, h⟩⟩
    | succ n =>
      rw [List.take_succ_cons, makeDirsFrom]
      rcases h with ⟨back, h⟩ | ⟨down, short, ⟨found, h⟩ | ⟨nothing, h⟩⟩
      · rw [if_pos back]
        exact .inl ⟨back, ih h n made'⟩
      · rw [if_neg down, if_neg short, found]
        exact .inr ⟨down, short, .inl ⟨find?_of_makeDirsFrom rfl found, ih h n made'⟩⟩
      · rw [if_neg down, if_neg short, nothing]
        have there : (t.set (place ++ [name]) .directory).find? (place ++ [name]) =
            some .directory := find?_set_self (by simp)
        simp only [reduceCtorEq, and_false, if_false]
        exact .inr ⟨down, short, .inl ⟨find?_of_makeDirsFrom rfl there, ih h n made'⟩⟩

end Making

/-! ## Where a plan can be cut off -/

private theorem makeDirs_eq_ok_iff :
    t.makeDirs p = (t', .ok ()) ↔
      refusal? p = none ∧ t.makeDirsFrom p.ending false [] p.names = (t', .ok ()) := by
  rw [makeDirs]
  cases refusal? p <;> simp

/-- A step that is done is one that was cut off at its end, unless it takes a name. -/
theorem exists_cutOff_makeDirs (h : t.makeDirs p = (t', .ok ())) :
    ∃ n, t.cutOff n (.makeDirs p) = t' := by
  obtain ⟨accepted, made⟩ := makeDirs_eq_ok_iff.1 h
  exact ⟨p.names.length, by simp [cutOff, accepted, made]⟩

private theorem exists_cutOff_write {content : Content} (h : t.write p content = .ok t') :
    ∃ n, t.cutOff n (.write p content) = t' :=
  ⟨content.length, by simp [cutOff, h, orSame]⟩

/-- The program dies while it makes directories, while it writes the temporary file, or when the
name is taken. -/
theorem diesIn_rewriting_cases {content : Content} (dies : t.DiesIn (rewriting p content) t') :
    (∃ n, t.cutOff n (.makeDirs p.parent) = t') ∨
      ∃ t₁, t.makeDirs p.parent = (t₁, .ok ()) ∧
        ((∃ n, t₁.cutOff n (.write p.temporary content) = t') ∨
          ∃ t₂, t₁.write p.temporary content = .ok t₂ ∧ t₂.rename p.temporary p = .ok t') := by
  cases dies with
  | between => exact .inl ⟨0, by simp [cutOff, makeDirsFrom]⟩
  | amid _ n => exact .inl ⟨n, rfl⟩
  | @later _ t₁ _ _ _ made dies =>
    cases dies with
    | between => exact .inl (exists_cutOff_makeDirs made)
    | amid _ n => exact .inr ⟨t₁, made, .inl ⟨n, rfl⟩⟩
    | @later _ t₂ _ _ _ written dies =>
      rw [perform_write_eq_ok_iff] at written
      cases dies with
      | between => exact .inr ⟨t₁, made, .inl (exists_cutOff_write written)⟩
      | amid _ n => exact .inr ⟨t₁, made, .inl (exists_cutOff_write written)⟩
      | @later _ t₃ _ _ _ renamed dies =>
        cases dies
        exact .inr ⟨t₁, made, .inr ⟨t₂, written, perform_rename_eq_ok_iff.1 renamed⟩⟩

/-! ## A file that is written by way of another one -/

private theorem spares_cutOff_makeDirs (t : Tree) (p : Path) (n : Nat) :
    Spares p t (t.cutOff n (.makeDirs p.parent)) := by
  rw [cutOff]
  split
  · exact .refl p t
  · refine ⟨find?_makeDirsFrom .., fun dir enters => ?_⟩
    -- Where the directory could be entered nothing has to be made on the way to it.
    obtain ⟨mid, enters'⟩ := exists_enter_take enters n
    have same : t.makeDirsFrom p.parent.ending false [] (p.parent.names.take n) = (t, .ok ()) :=
      makeDirsFrom_of_enter enters'
    rw [same]
    exact ⟨enters, rfl⟩

/-- Wherever the program dies, the file is spared or has its new content. -/
theorem spares_or_read_of_diesIn (different : p.temporary.names ≠ p.names) {content : Content}
    (dies : t.DiesIn (rewriting p content) t') : Spares p t t' ∨ t'.read p = .ok content := by
  rcases diesIn_rewriting_cases dies with ⟨n, rfl⟩ | ⟨t₁, made, ⟨n, rfl⟩ | ⟨t₂, written, renamed⟩⟩
  · exact .inl (spares_cutOff_makeDirs t p n)
  · have spared := spares_makeDirs t p
    rw [made] at spared
    exact .inl (spared.trans (spares_orSame_write different t₁ (content.take n)))
  · obtain ⟨-, there⟩ := spares_write different written
    exact .inr (read_of_rename different there renamed)

/-! ## A file that is written in place -/

/-- What was written to the temporary file can be read, if that is the file itself. -/
theorem read_of_write_of_same (same : p.temporary.names = p.names) (accepted : refusal? p = none)
    (plain : p.ending = .plain) {content : Content} (h : t.write p.temporary content = .ok t') :
    t'.read p = .ok content := by
  obtain ⟨place, found, noDirectory, rfl⟩ := of_write h
  obtain ⟨rfl, -⟩ := eq_place_of_locate found
  obtain ⟨-, -, name, dir, file, enters, short, here⟩ := locate_eq_entry_iff.1 found
  have own : p.fileName? = some name := by rw [← file, Path.fileName?, Path.fileName?, same]
  have enters' : (t.set p.temporary.place (.file content)).enter [] p.names.dropLast = .ok dir := by
    rw [← same]
    exact enter_set noDirectory enters
  have located :
      (t.set p.temporary.place (.file content)).locate p = .ok (.entry p.temporary.place) :=
    locate_eq_entry_iff.2 ⟨accepted, by simp [plain], name, dir, own, enters', short, here⟩
  rw [read, located]
  simp [find?_set_self (show p.temporary.place ≠ [] by simp [here]), plain]

/-! ## A plan that succeeds -/

/-- The trees after each of the steps that give a file new content. -/
structure Rewrites (p : Path) (content : Content) (t t₁ t₂ t₃ : Tree) : Prop where
  made : t.makeDirs p.parent = (t₁, .ok ())
  written : t₁.write p.temporary content = .ok t₂
  renamed : t₂.rename p.temporary p = .ok t₃

namespace Rewrites

variable {content : Content} {t₁ t₂ t₃ : Tree} (whole : Rewrites p content t t₁ t₂ t₃)
include whole

/-- The path is one that can be followed and ends in the name of a file. -/
theorem named : refusal? p = none ∧ p.ending = .plain ∧
    ∃ name, p.fileName? = some name ∧ ¬ longestName < name.utf8ByteSize := by
  obtain ⟨_, _, _, -, found, -, plain, -, -⟩ := of_rename whole.renamed
  obtain ⟨accepted, -, name, -, file, -, short, -⟩ := locate_eq_entry_iff.1 found
  exact ⟨accepted, plain, name, file, short⟩

private theorem find?_ne_directory : t₁.find? p.place ≠ some .directory := by
  obtain ⟨place, found, noDirectory, rfl⟩ := of_write whole.written
  obtain ⟨rfl, -⟩ := eq_place_of_locate found
  obtain ⟨_, _, _, -, found', -, -, noDirectory', -⟩ := of_rename whole.renamed
  obtain ⟨rfl, -⟩ := eq_place_of_locate found'
  by_cases here : p.place = p.temporary.place
  · rwa [here]
  · rwa [find?_set_of_ne here] at noDirectory'

private theorem enter_made : ∃ dir, t₁.enter [] p.names.dropLast = .ok dir :=
  enter_makeDirsFrom (makeDirs_eq_ok_iff.1 whole.made).2

/-- If the directory of the path can be entered or is missing, the file can be read or is
missing. -/
theorem read_of_enter {s : Tree}
    (way : (∃ dir, s.enter [] p.names.dropLast = .ok dir ∧ s.find? p.place ≠ some .directory) ∨
      s.enter [] p.names.dropLast = .error .notFound) :
    (∃ content, s.read p = .ok content) ∨ s.read p = .error .notFound := by
  obtain ⟨accepted, plain, name, file, short⟩ := whole.named
  rw [read, locate_of_fileName? file, accepted]
  rcases way with ⟨dir, enters, noDirectory⟩ | missing
  · have here : p.place = dir ++ [name] := by
      rw [Path.place_of_fileName? file, ← follow_of_enter enters]
    rw [here] at noDirectory
    simp only [plain, reduceCtorEq, if_false, enters, short, if_true]
    split
    · exact .inr rfl
    · contradiction
    · exact .inl ⟨_, rfl⟩
  · simp [plain, missing]

/-- Wherever the program dies before the name is taken, the file can be read or is missing. -/
theorem read_of_diesIn (different : p.temporary.names ≠ p.names) {s : Tree}
    (dies : t.DiesIn (rewriting p content) s) :
    (∃ content, s.read p = .ok content) ∨ s.read p = .error .notFound := by
  -- The program dies while it makes the directories, while it writes the other file, or after the
  -- new name was given.
  obtain ⟨accepted, made⟩ := makeDirs_eq_ok_iff.1 whole.made
  rcases diesIn_rewriting_cases dies with ⟨n, rfl⟩ | ⟨s₁, made', ⟨n, rfl⟩ | ⟨s₂, written, renamed⟩⟩
  · apply whole.read_of_enter
    rw [cutOff, accepted]
    simp only [Option.isSome_none, Bool.false_eq_true, if_false]
    have again := makeDirsFrom_again made n false
    rcases enter_of_makeDirsFrom again with ⟨dir, enters⟩ | missing
    · -- The directories are all there, so that the program dies after they were made.
      refine .inl ⟨dir, enters, ?_⟩
      rw [makeDirsFrom_of_enter enters] at again
      have same : (t.makeDirsFrom .plain false [] (p.parent.names.take n)).1 = t₁ :=
        congrArg Prod.fst again
      exact same ▸ whole.find?_ne_directory
    · exact .inr missing
  · obtain rfl : s₁ = t₁ := congrArg Prod.fst (made'.symm.trans whole.made)
    obtain ⟨dir, enters⟩ := whole.enter_made
    obtain ⟨enters', same⟩ := (spares_orSame_write different s₁ (content.take n)).enter dir enters
    exact whole.read_of_enter (.inl ⟨dir, enters', same ▸ whole.find?_ne_directory⟩)
  · obtain ⟨-, there⟩ := spares_write different written
    exact .inl ⟨content, read_of_rename different there renamed⟩

/-- A plan that was followed to its end gives the file its new content, in place or not. -/
theorem read_whole : t₃.read p = .ok content := by
  by_cases same : p.temporary.names = p.names
  · obtain ⟨accepted, plain, -⟩ := whole.named
    have there := read_of_write_of_same same accepted plain whole.written
    -- A file takes its own name, which changes nothing.
    obtain ⟨old, new, -, found, found', -, -, -, rfl⟩ := of_rename whole.renamed
    obtain ⟨rfl, -⟩ := eq_place_of_locate found
    obtain ⟨rfl, -⟩ := eq_place_of_locate found'
    rwa [if_pos (by rw [Path.place, Path.place, same])]
  · obtain ⟨-, there⟩ := spares_write same whole.written
    exact read_of_rename same there whole.renamed

/-- A file that is written in place may be left with any part of its new content. -/
theorem exists_diesIn_of_same (same : p.temporary.names = p.names) (n : Nat) :
    ∃ s, t.DiesIn (rewriting p content) s ∧ s.read p = .ok (content.take n) := by
  obtain ⟨accepted, plain, -⟩ := whole.named
  obtain ⟨s, written⟩ := write_of_write whole.written (content.take n)
  refine ⟨s, ?_, read_of_write_of_same same accepted plain written⟩
  have cut : t₁.cutOff n (.write p.temporary content) = s := by rw [cutOff, written]; rfl
  rw [← cut]
  exact .later whole.made (.amid ..)

end Rewrites

end Tree

/-! ## The plan on a disk -/

namespace Disk

variable {p : Path} {d d' : Disk}

/-- What has succeeded has met no fault, so that every step was done. -/
theorem of_run_cons {step : FileStep} {steps : List FileStep}
    (h : d.run (step :: steps) = (d', .ok ())) :
    ∃ d₁ : Disk, d.tree.perform step = (d₁.tree, .ok ()) ∧ d₁.run steps = (d', .ok ()) := by
  rcases d.run_cons step steps with ⟨d₁, done, rest⟩ | ⟨d₁, e, -, rest⟩
  · rcases perform_cases d step with ⟨kept, faults, e, torn⟩ | ⟨faults, performed⟩
    · simp [torn] at done
    · rw [performed, Prod.mk.injEq] at done
      obtain ⟨rfl, outcome⟩ := done
      exact ⟨_, Prod.ext rfl outcome, rest ▸ h⟩
  · simp [rest] at h

/-- Where the file could be rewritten, both of its steps were made in full. -/
theorem rewrites_of_run {content : Content} (h : d.run (Tree.rewriting p content) = (d', .ok ())) :
    ∃ t₁ t₂, Tree.Rewrites p content d.tree t₁ t₂ d'.tree := by
  obtain ⟨d₁, made, h⟩ := of_run_cons h
  obtain ⟨d₂, written, h⟩ := of_run_cons h
  obtain ⟨d₃, renamed, h⟩ := of_run_cons h
  obtain rfl : d₃ = d' := congrArg Prod.fst h
  exact ⟨d₁.tree, d₂.tree, made, Tree.perform_write_eq_ok_iff.1 written,
    Tree.perform_rename_eq_ok_iff.1 renamed⟩

end Disk

end ChatClient
