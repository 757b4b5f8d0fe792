import ChatClient.Files.Disk
import ChatClient.Message.Stored

/-!
# What waits to be sent

The outbox holds the payloads that could not be sent yet, in the order in which they will be. It may
have a file, which is then rewritten after every change: the entries go to a temporary file, and
that file takes the name of the old one, so that at no time the name belongs to half a list.

When the file cannot be written, entries that were added stay in the outbox, but nothing is taken
out: what is taken out must not come back from the file later.

## Main definitions

* `Outbox`, `Outbox.load`
* `Outbox.savePlan`, `Outbox.save`: the steps that rewrite the file
* `Outbox.enqueue`, `Outbox.flush`, `Outbox.requeueFront`
-/

namespace ChatClient

/-- Entries that wait, with the file that keeps them, if there is one. -/
structure Outbox where
  entries : List QueueEntry := []
  file : Option Path := none
  deriving DecidableEq

/-- What is said when the file of an outbox fails. -/
def FileError.queueMessage (e : FileError) : String :=
  "Queue I/O error: " ++ e.message

namespace Outbox

/-- An outbox that is lost with the program. -/
def inMemory (entries : List QueueEntry) : Outbox := { entries }

/-- The entries in the content of a file. A text that is no list of entries counts as the empty
list. -/
def entriesOf (content : Content) : Except FileError (List QueueEntry) :=
  match content.text? with
  | none => .error .notUtf8
  | some s =>
    match QueueEntry.readAll s with
    | .ok entries => .ok entries
    | .error _ => .ok []

/-- The outbox kept in a file. There need not be one yet. -/
def load (t : Tree) (p : Path) : Except FileError Outbox :=
  match t.read p with
  | .ok content => (entriesOf content).map fun entries => { entries, file := some p }
  | .error .notFound => .ok { file := some p }
  | .error e => .error e

/-- The steps that put entries into a file. -/
def savePlan (p : Path) (entries : List QueueEntry) : List FileStep := [
  .makeDirs p.parent,
  .write p.temporary (Content.ofText (QueueEntry.writeAll entries)),
  .rename p.temporary p]

/-- Rewrites the file, if there is one. -/
def save (q : Outbox) (d : Disk) : Disk × Except FileError Unit :=
  match q.file with
  | none => (d, .ok ())
  | some p => d.run (savePlan p q.entries)

/-- Adds an entry at the end. It stays there even if the file cannot be written. -/
def enqueue (q : Outbox) (d : Disk) (e : QueueEntry) : Outbox × Disk × Except FileError Unit :=
  let q := { q with entries := q.entries ++ [e] }
  (q, q.save d)

/-- Takes out the entries that pass a test and returns them in their order. If the file cannot be
written, nothing is taken out. -/
def flush (q : Outbox) (d : Disk) (p : QueueEntry → Bool) :
    Outbox × Disk × Except FileError (List QueueEntry) :=
  let flushed := q.entries.filter p
  -- Nothing changes, so the file is not written either.
  if flushed.isEmpty then (q, d, .ok [])
  else
    let rest := { q with entries := q.entries.filter fun e => !p e }
    match rest.save d with
    | (d, .ok ()) => (rest, d, .ok flushed)
    | (d, .error e) => (q, d, .error e)

/-- Puts entries in front of all others. They stay there even if the file cannot be written. -/
def requeueFront (q : Outbox) (d : Disk) (entries : List QueueEntry) :
    Outbox × Disk × Except FileError Unit :=
  let q := { q with entries := entries ++ q.entries }
  (q, q.save d)

/-- What does not pass a test is everything if nothing passes it. -/
theorem filter_not_eq_self {es : List QueueEntry} {p : QueueEntry → Bool} (h : es.filter p = []) :
    es.filter (fun e => !p e) = es := by
  rw [List.filter_eq_self]
  rw [List.filter_eq_nil_iff] at h
  intro e he
  simpa using h e he

/-- Either what passes the test is taken out, or the file could not be written and nothing is. -/
theorem flush_cases (q : Outbox) (d : Disk) (p : QueueEntry → Bool) :
    (∃ d', q.flush d p =
      ({ q with entries := q.entries.filter fun e => !p e }, d', .ok (q.entries.filter p))) ∨
    ∃ d' e, q.flush d p = (q, d', .error e) := by
  rw [flush]
  split
  · next none_ =>
    rw [List.isEmpty_iff] at none_
    exact .inl ⟨d, by rw [filter_not_eq_self none_, none_]⟩
  · dsimp only
    split
    · next d' _ => exact .inl ⟨d', rfl⟩
    · next d' e _ => exact .inr ⟨d', e, rfl⟩

/-! ## Without a file -/

section InMemory

variable {q : Outbox} (memory : q.file = none) (d : Disk)
include memory

theorem enqueue_inMemory (e : QueueEntry) :
    q.enqueue d e = ({ q with entries := q.entries ++ [e] }, d, .ok ()) := by
  simp [enqueue, save, memory]

theorem requeueFront_inMemory (es : List QueueEntry) :
    q.requeueFront d es = ({ q with entries := es ++ q.entries }, d, .ok ()) := by
  simp [requeueFront, save, memory]

theorem flush_inMemory (p : QueueEntry → Bool) :
    q.flush d p =
      ({ q with entries := q.entries.filter fun e => !p e }, d, .ok (q.entries.filter p)) := by
  unfold flush
  dsimp only
  split
  · next none_ =>
    rw [List.isEmpty_iff] at none_
    rw [filter_not_eq_self none_, none_]
  · simp [save, memory]

end InMemory

end Outbox

end ChatClient
