import ChatClient.Proofs.Files.Interruption
import ChatClient.Proofs.Queue.Durability
import Mathlib.Tactic.Common

/-!
# What waits outlives the program

The program may die while it rewrites the file of an outbox. Whoever opens the file next must find
the entries it held before or the new ones, and never a part of them. This is so exactly if the new
entries are written to another file first. The temporary file has the name of the file with the
extension `tmp`, so that a file which has this extension already is its own temporary one, and is
lost if the program dies at the wrong moment.

## Main definitions

* `Outbox.stored`: the content of a file in which entries wait
* `Outbox.CanSave`: entries can be saved if nothing comes between
* `Outbox.Survives`: what is promised for the file when the program dies

## Main results

* `load_of_save`: what was saved can be loaded again
* `survives_of_diesIn`: the promise is kept if the temporary file is another one
* `not_survives_of_same`: it is broken if it is the same
* `survives_iff`
-/

namespace ChatClient

namespace Outbox

/-- The content of a file in which the entries wait. -/
def stored (entries : List QueueEntry) : Content :=
  Content.ofText (QueueEntry.writeAll entries)

/-- The outbox that the content at the place of the path makes, whether the path can be followed or
not. Where no file is, nothing waits. -/
def kept (t : Tree) (p : Path) : Except FileError Outbox :=
  match t.contentAt p with
  | none => .ok { file := some p }
  | some content => (entriesOf content).map fun entries => { entries, file := some p }

/-- The entries can be saved in the file of the path, if nothing comes between. -/
def CanSave (t : Tree) (p : Path) (entries : List QueueEntry) : Prop :=
  ((⟨t, []⟩ : Disk).run (savePlan p entries)).2 = .ok ()

/-- What is promised for the file of a path when the program dies while it saves new entries
there. -/
structure Survives (p : Path) (new : List QueueEntry) (t t' : Tree) : Prop where
  /-- At the place of the path is the whole old content or the whole new one. -/
  content : t'.contentAt p = t.contentAt p ∨ t'.contentAt p = some (stored new)
  /-- Who opens the file finds what was found before, or the new entries. Only a path that leads out
  of a missing directory by `..`, so that nothing was found before, may lead to the whole old
  content when the directory has been made. -/
  reopened : load t' p = load t p ∨ load t' p = .ok { entries := new, file := some p } ∨
    (Path.up ∈ p.names ∧ (∀ dir, t.enter [] p.parent.names ≠ .ok dir) ∧ load t' p = kept t p)

variable {p : Path} {t t' : Tree} {new : List QueueEntry}

private theorem two_le_length_stored (entries : List QueueEntry) : 2 ≤ (stored entries).length := by
  have bytes : (stored entries).length = (QueueEntry.writeAll entries).utf8ByteSize := rfl
  rw [bytes, QueueEntry.writeAll, Json.writeList, List.cons_append, String.ofList_cons,
    String.ofList_append, String.utf8ByteSize_append, String.utf8ByteSize_append]
  have opening : (String.singleton '[').utf8ByteSize = 1 := rfl
  have closing : (String.ofList [']']).utf8ByteSize = 1 := rfl
  omega

private theorem load_of_read_eq {t t' : Tree} (same : t'.read p = t.read p) :
    load t' p = load t p := by
  rw [load, load, same]

/-- What was saved can be loaded again, whether or not it was written in place. -/
theorem load_of_save {q : Outbox} (file : q.file = some p) {d d' : Disk}
    (saved : q.save d = (d', .ok ())) : load d'.tree p = .ok q := by
  obtain ⟨entries, _⟩ := q
  obtain rfl := file
  obtain ⟨t₁, t₂, whole⟩ := Disk.rewrites_of_run saved
  exact load_of_read whole.read_whole

private theorem rewrites_of_canSave (possible : CanSave t p new) :
    ∃ t₁ t₂ t₃, Tree.Rewrites p (stored new) t t₁ t₂ t₃ := by
  obtain ⟨t₁, t₂, whole⟩ := Disk.rewrites_of_run (d := ⟨t, []⟩) (p := p) (Prod.ext rfl possible)
  exact ⟨t₁, t₂, _, whole⟩

/-- If the temporary file is another one, the file is whole wherever the program dies. -/
theorem survives_of_diesIn (possible : CanSave t p new) (ordered : t.WellFormed)
    (different : p.temporary.names ≠ p.names) (dies : t.DiesIn (savePlan p new) t') :
    Survives p new t t' := by
  obtain ⟨t₁, t₂, t₃, whole⟩ := rewrites_of_canSave possible
  rcases Tree.spares_or_read_of_diesIn different dies with spared | read
  · have untouched := spared.untouched ordered
    refine ⟨.inl untouched.contentAt, ?_⟩
    rcases whole.read_of_diesIn different (.between t _) with ⟨old, before⟩ | missing
    · exact .inl (load_of_read_eq (by rw [spared.read_of_read before, before]))
    rcases whole.read_of_diesIn different dies with ⟨content, after⟩ | missing'
    · -- What can be read now and could not be before was at the place all along.
      have appeared := untouched.read
      rw [after, missing] at appeared
      rcases appeared with same | ⟨leads, closed, there⟩
      · cases same
      · refine .inr (.inr ⟨leads, closed, ?_⟩)
        rw [load, kept, after, ← there]
        rfl
    · exact .inl (load_of_read_eq (by rw [missing, missing']))
  · exact ⟨.inr (Tree.contentAt_of_read read).1, .inr (.inl (load_of_read read))⟩

/-- If it is the file itself, the program may die when the file holds neither its old content nor
its new one. -/
theorem not_survives_of_same (possible : CanSave t p new) (same : p.temporary.names = p.names) :
    ∃ t', t.DiesIn (savePlan p new) t' ∧ ¬ Survives p new t t' := by
  obtain ⟨t₁, t₂, t₃, whole⟩ := rewrites_of_canSave possible
  have long := two_le_length_stored new
  -- Of two different beginnings of the new content one is not the old content.
  obtain ⟨n, short, other⟩ : ∃ n < 2, t.contentAt p ≠ some ((stored new).take n) := by
    by_cases empty : t.contentAt p = some ((stored new).take 0)
    · refine ⟨1, by omega, ?_⟩
      rw [empty]
      intro same
      simpa [Nat.min_eq_left (by omega : 1 ≤ (stored new).length)] using
        congrArg (Option.map List.length) same
    · exact ⟨0, by omega, empty⟩
  obtain ⟨t', dies, read⟩ := whole.exists_diesIn_of_same same n
  refine ⟨t', dies, fun survives => ?_⟩
  have there := (Tree.contentAt_of_read read).1
  rcases survives.content with old | whole
  · exact other (old ▸ there)
  · have size := congrArg (Option.map List.length) (there.symm.trans whole)
    simp only [Option.map_some, List.length_take, Option.some.injEq] at size
    omega

/-- Where entries can be saved, they survive the death of the program exactly if the temporary file
is another one than the file itself. -/
theorem survives_iff (possible : CanSave t p new) (ordered : t.WellFormed) :
    (∀ t', t.DiesIn (savePlan p new) t' → Survives p new t t') ↔ p.temporary.names ≠ p.names := by
  constructor
  · intro always same
    obtain ⟨t', dies, broken⟩ := not_survives_of_same possible same
    exact broken (always t' dies)
  · intro different t' dies
    exact survives_of_diesIn possible ordered different dies

end Outbox

/-! ### A detour

A letter waits in a drawer, and the program dies while it puts in another one. -/

namespace Detour

def bothLetters : List QueueEntry := [letter "first", letter "second"]

/-- A drawer whose file has the name of a temporary one. -/
def makeshift : Path := .ofText "drawer.tmp"

def loft : Tree := ⟨[(["drawer.tmp"], .file oneLetter)]⟩

end Detour

theorem survives_iff_detour :
    Outbox.CanSave Detour.desk.tree Detour.drawer Detour.bothLetters ∧
      Detour.desk.tree.WellFormed ∧
      ((∀ t', Detour.desk.tree.DiesIn (Outbox.savePlan Detour.drawer Detour.bothLetters) t' →
          Outbox.Survives Detour.drawer Detour.bothLetters Detour.desk.tree t') ↔
        Detour.drawer.temporary.names ≠ Detour.drawer.names) := by
  have possible : Outbox.CanSave Detour.desk.tree Detour.drawer Detour.bothLetters := rfl
  have ordered : Detour.desk.tree.WellFormed := Tree.wellFormed_of_nodes (by decide)
  exact ⟨possible, ordered, Outbox.survives_iff possible ordered⟩

/-- The letter that waited is lost with the one that was to be added, whether nothing or some of the
new content had been written. -/
theorem torn_detour :
    Outbox.CanSave Detour.loft Detour.makeshift Detour.bothLetters ∧
      Outbox.load Detour.loft Detour.makeshift =
        .ok { entries := [Detour.letter "first"], file := some Detour.makeshift } ∧
      (∃ t', Detour.loft.DiesIn (Outbox.savePlan Detour.makeshift Detour.bothLetters) t' ∧
        t'.read Detour.makeshift = .ok [] ∧
        Outbox.load t' Detour.makeshift = .ok { file := some Detour.makeshift }) ∧
      ∃ t', Detour.loft.DiesIn (Outbox.savePlan Detour.makeshift Detour.bothLetters) t' ∧
        t'.read Detour.makeshift = .ok ((Outbox.stored Detour.bothLetters).take 40) ∧
        Outbox.load t' Detour.makeshift = .ok { file := some Detour.makeshift } := by
  have opened : Outbox.load Detour.loft Detour.makeshift =
      .ok { entries := [Detour.letter "first"], file := some Detour.makeshift } :=
    Outbox.load_of_read rfl
  have made : Detour.loft.perform (.makeDirs Detour.makeshift.parent) = (Detour.loft, .ok ()) := rfl
  exact ⟨rfl, opened, ⟨_, .later made (.amid _ 0 _ _), rfl, rfl⟩,
    ⟨_, .later made (.amid _ 40 _ _), rfl, by decide +kernel⟩⟩

end ChatClient
