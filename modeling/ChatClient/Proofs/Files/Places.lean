import ChatClient.Files.Disk
import Mathlib.Tactic.Common

/-!
# Where a path leads

A path that can be followed leads to a place that its names alone decide: every name leads one step
down, and `..` takes the last step back. So two paths with different last names in one directory
never lead to the same place, and a change at one place leaves the content at all others as it was.

What a path leads *through* may change: when a missing directory is made, a path that enters it and
leaves it again by `..` can be followed from then on.

## Main definitions

* `Path.follow`, `Path.place`: the place that names lead to
* `Tree.contentAt`: the content of the file at the place of a path, whether the path can be followed
  or not

## Main results

* `follow_of_enter`, `eq_place_of_locate`: a path that can be followed leads to its place
* `contentAt_of_read`: what is read is the content at the place
* `enter_set`, `enter_erase`: a path can still be followed when something else changes
-/

namespace ChatClient

namespace Path

/-- The place to which names lead, from another place. -/
def follow : Place → List String → Place
  | place, [] => place
  | place, name :: names => follow (if name = up then place.dropLast else place ++ [name]) names

/-- The place to which a path leads if it can be followed. -/
def place (p : Path) : Place := follow [] p.names

/-- Names are followed one after the other. -/
theorem follow_append (place : Place) (names names' : List String) :
    follow place (names ++ names') = follow (follow place names) names' := by
  induction names generalizing place with
  | nil => rfl
  | cons name names ih => exact ih _

/-- Without `..` the names are the place. -/
theorem follow_of_not_mem {names : List String} (h : up ∉ names) (place : Place) :
    follow place names = place ++ names := by
  induction names generalizing place with
  | nil => simp [follow]
  | cons name names ih =>
    simp only [List.mem_cons, not_or] at h
    rw [follow, if_neg (Ne.symm h.1), ih h.2]
    simp

/-- The name of a file is the last one, and it does not lead back up. -/
theorem names_of_fileName? {p : Path} {name : String} (h : p.fileName? = some name) :
    p.names = p.names.dropLast ++ [name] ∧ name ≠ up := by
  simp only [fileName?, Option.filter_eq_some_iff, decide_eq_true_eq] at h
  obtain ⟨last, down⟩ := h
  obtain ⟨front, split⟩ := List.getLast?_eq_some_iff.1 last
  refine ⟨?_, down⟩
  rw [split, List.dropLast_concat]

/-- The file of a path is in the directory that its other names lead to. -/
theorem place_of_fileName? {p : Path} {name : String} (h : p.fileName? = some name) :
    p.place = follow [] p.names.dropLast ++ [name] := by
  obtain ⟨split, down⟩ := names_of_fileName? h
  rw [place, split, follow_append, List.dropLast_concat]
  simp [follow, down]

end Path

namespace Tree

variable {t : Tree}

/-- The content of the file at the place of a path. -/
def contentAt (t : Tree) (p : Path) : Option Content :=
  match t.find? p.place with
  | some (.file content) => some content
  | _ => none

/-! ## Following names -/

/-- Names can be followed if the first one leads back up, or to a directory, and the others can from
there. -/
theorem enter_cons_eq_ok_iff {place place' : Place} {name : String} {names : List String} :
    t.enter place (name :: names) = .ok place' ↔
      (name = Path.up ∧ t.enter place.dropLast names = .ok place') ∨
        (name ≠ Path.up ∧ ¬ longestName < name.utf8ByteSize ∧
          t.find? (place ++ [name]) = some .directory ∧
            t.enter (place ++ [name]) names = .ok place') := by
  rw [enter]
  by_cases back : name = Path.up
  · simp [back]
  · by_cases long : longestName < name.utf8ByteSize
    · simp [back, long]
    · rw [if_neg back, if_neg long]
      cases found : t.find? (place ++ [name]) with
      | none => simp [back]
      | some node => cases node <;> simp [back, long]

/-- Names that can be followed in a tree lead where they lead by themselves. -/
theorem follow_of_enter {place place' : Place} {names : List String}
    (h : t.enter place names = .ok place') : place' = Path.follow place names := by
  induction names generalizing place with
  | nil => exact (Except.ok.inj h).symm
  | cons name names ih =>
    rw [Path.follow]
    rcases enter_cons_eq_ok_iff.1 h with ⟨back, h⟩ | ⟨down, -, -, h⟩
    · rw [if_pos back]
      exact ih h
    · rw [if_neg down]
      exact ih h

/-- Something else at a place that is no directory is not in the way of names that can be
followed. -/
theorem enter_set {a : Place} {node : Node} (file : t.find? a ≠ some .directory)
    {place place' : Place} {names : List String} (h : t.enter place names = .ok place') :
    (t.set a node).enter place names = .ok place' := by
  induction names generalizing place with
  | nil => exact h
  | cons name names ih =>
    rw [enter_cons_eq_ok_iff] at h ⊢
    rcases h with ⟨back, h⟩ | ⟨down, short, found, h⟩
    · exact .inl ⟨back, ih h⟩
    · have other : place ++ [name] ≠ a := by
        rintro rfl
        exact file found
      exact .inr ⟨down, short, (find?_set_of_ne other).trans found, ih h⟩

/-- Only what lies at or below the place is gone. -/
theorem find?_erase {a b : Place} (h : ¬ a <+: b) : (t.erase a).find? b = t.find? b := by
  by_cases root : b = []
  · simp [find?, root]
  · have outside : a.isPrefixOf b = false := by
      rw [Bool.eq_false_iff, ne_eq, List.isPrefixOf_iff_prefix]
      exact h
    simp only [find?, root, if_false, erase]
    exact lookup_filter t.nodes (fun place => !a.isPrefixOf place) (by rw [outside]; rfl)

/-- Nor is it in the way that something which is no directory is gone. -/
theorem enter_erase {a : Place} (file : t.find? a ≠ some .directory) {place place' : Place}
    (outside : ¬ a <+: place) {names : List String} (h : t.enter place names = .ok place') :
    (t.erase a).enter place names = .ok place' := by
  induction names generalizing place with
  | nil => exact h
  | cons name names ih =>
    rw [enter_cons_eq_ok_iff] at h ⊢
    rcases h with ⟨back, h⟩ | ⟨down, short, found, h⟩
    · exact .inl ⟨back, ih (fun inside => outside (inside.trans (List.dropLast_prefix _))) h⟩
    · -- What is entered is a directory, so that it is neither the place nor below it.
      have below : ¬ a <+: place ++ [name] := by
        intro inside
        rcases List.prefix_concat_iff.1 inside with same | above
        · exact file (same ▸ found)
        · exact outside above
      exact .inr ⟨down, short, (find?_erase below).trans found, ih below h⟩

private theorem enter_append {place place' : Place} {names : List String}
    (h : t.enter place names = .ok place') (names' : List String) :
    t.enter place (names ++ names') = t.enter place' names' := by
  induction names generalizing place with
  | nil => rw [← Except.ok.inj h, List.nil_append]
  | cons name names ih =>
    rw [List.cons_append, enter]
    rcases enter_cons_eq_ok_iff.1 h with ⟨back, h⟩ | ⟨down, short, found, h⟩
    · rw [if_pos back]
      exact ih h
    · rw [if_neg down, if_neg short, found]
      exact ih h

/-- Whoever can follow all of the names can follow the first ones. -/
theorem exists_enter_take {place place' : Place} {names : List String}
    (h : t.enter place names = .ok place') (n : Nat) :
    ∃ mid, t.enter place (names.take n) = .ok mid := by
  induction names generalizing place n with
  | nil => exact ⟨place', by rwa [List.take_nil]⟩
  | cons name names ih =>
    cases n with
    | zero => exact ⟨place, rfl⟩
    | succ n =>
      rw [List.take_succ_cons]
      rcases enter_cons_eq_ok_iff.1 h with ⟨back, h⟩ | ⟨down, short, found, h⟩
      · obtain ⟨mid, enters⟩ := ih h n
        exact ⟨mid, enter_cons_eq_ok_iff.2 (.inl ⟨back, enters⟩)⟩
      · obtain ⟨mid, enters⟩ := ih h n
        exact ⟨mid, enter_cons_eq_ok_iff.2 (.inr ⟨down, short, found, enters⟩)⟩

/-! ## Where a path leads -/

/-- Only the name of a file in a directory leads to an entry. -/
theorem locate_of_fileName? {p : Path} {name : String} (file : p.fileName? = some name) :
    t.locate p =
      match refusal? p with
      | some e => .error e
      | none =>
        if p.ending = .dot then (t.enter [] p.names).map .directory
        else
          match t.enter [] p.names.dropLast with
          | .error e => .error e
          | .ok place =>
            if longestName < name.utf8ByteSize then .error .nameTooLong
            else .ok (.entry (place ++ [name])) := by
  rw [locate]
  cases refusal? p with
  | some e => rfl
  | none => cases p.ending <;> rw [file] <;> rfl

/-- A path that leads to an entry is the name of a file in a directory that can be entered. -/
theorem locate_eq_entry_iff {p : Path} {place : Place} :
    t.locate p = .ok (.entry place) ↔
      refusal? p = none ∧ p.ending ≠ .dot ∧ ∃ name dir, p.fileName? = some name ∧
        t.enter [] p.names.dropLast = .ok dir ∧ ¬ longestName < name.utf8ByteSize ∧
          place = dir ++ [name] := by
  cases file : p.fileName? with
  | none =>
    -- Without a name the path leads to a directory, if anywhere.
    have never : t.locate p ≠ .ok (.entry place) := by
      rw [locate, file]
      cases refusal? p with
      | some e => simp
      | none => cases p.ending <;> cases t.enter [] p.names <;> simp [Except.map]
    simp [never]
  | some name =>
    rw [locate_of_fileName? file]
    cases refusal? p with
    | some e => simp
    | none =>
      by_cases dot : p.ending = .dot
      · cases t.enter [] p.names <;> simp [dot, Except.map]
      · cases t.enter [] p.names.dropLast with
        | error e => simp [dot]
        | ok dir =>
          by_cases long : longestName < name.utf8ByteSize
          · simp [dot, long, Nat.not_le.2 long]
          · simp [dot, long, Nat.not_lt.1 long, eq_comm]

/-- A path that leads to an entry leads to its place. -/
theorem eq_place_of_locate {p : Path} {place : Place} (h : t.locate p = .ok (.entry place)) :
    place = p.place ∧ t.enter [] p.names.dropLast = .ok p.place.dropLast := by
  obtain ⟨-, -, name, dir, file, enters, -, rfl⟩ := locate_eq_entry_iff.1 h
  have here := Path.place_of_fileName? file
  rw [← follow_of_enter enters] at here
  exact ⟨here.symm, by rw [here, List.dropLast_concat]; exact enters⟩

/-- What is read is decided by the directory that the names enter and by what is at the place. -/
theorem read_congr {t' : Tree} {p : Path} {name : String} {dir : Place}
    (file : p.fileName? = some name) (enters : t.enter [] p.names.dropLast = .ok dir)
    (enters' : t'.enter [] p.names.dropLast = .ok dir) (same : t'.find? p.place = t.find? p.place) :
    t'.read p = t.read p := by
  obtain ⟨split, down⟩ := Path.names_of_fileName? file
  have here : p.place = dir ++ [name] := by
    rw [Path.place_of_fileName? file, ← follow_of_enter enters]
  have through : t'.enter [] p.names = t.enter [] p.names := by
    rw [split, enter_append enters', enter_append enters]
    simp only [enter, if_neg down, ← here, same]
  have located : t'.locate p = t.locate p := by
    rw [locate_of_fileName? file, locate_of_fileName? file, through, enters, enters']
  rw [read, located, read]
  cases found : t.locate p with
  | error e => rfl
  | ok target =>
    cases target with
    | directory place => rfl
    | entry place =>
      obtain ⟨rfl, -⟩ := eq_place_of_locate found
      simp only [same]

/-- What is read is the content at the place, and the directory of the path can be entered. -/
theorem contentAt_of_read {p : Path} {content : Content} (h : t.read p = .ok content) :
    t.contentAt p = some content ∧ t.enter [] p.names.dropLast = .ok p.place.dropLast := by
  rw [read] at h
  split at h
  · cases h
  · cases h
  · next place found =>
    obtain ⟨rfl, enters⟩ := eq_place_of_locate found
    refine ⟨?_, enters⟩
    rw [contentAt]
    split at h
    · cases h
    · cases h
    · next content' there =>
      rw [there]
      split at h
      · rw [Except.ok.inj h]
      · cases h

/-- Only a path that ends in a file can be read. -/
theorem fileName?_of_read {p : Path} {content : Content} (h : t.read p = .ok content) :
    ∃ name, p.fileName? = some name := by
  rw [read] at h
  split at h
  · cases h
  · cases h
  · next place found =>
    obtain ⟨-, -, name, -, file, -⟩ := locate_eq_entry_iff.1 found
    exact ⟨name, file⟩

end Tree

end ChatClient
