import ChatClient.Queue.Outbox
import ChatClient.Proofs.Files.Rewriting
import ChatClient.Proofs.Message.StoredForm
import Mathlib.Tactic.Common

/-!
# What an outbox with a file promises

An outbox with a file is asked for the same things as one in memory and answers the same, unless its
file cannot be rewritten. Adding then still adds, taking out takes nothing out, and memory and file
drift apart. The next time the file is rewritten they agree again.

## Main definitions

* `Outbox.Request`, `Outbox.answer`: what an outbox is asked for
* `Outbox.Occasion`, `Outbox.after`: what happens to it and to the disk
* `Outbox.twin`: the outbox in memory that is asked for the same
* `Outbox.Keeps`: what is promised for one request

## Main results

* `save_cases`, `answer_cases`: the file is rewritten and read back, or it is spared
* `answers_durably`: the promise is kept for every request, whatever has happened
-/

namespace ChatClient

namespace Outbox

/-- What an outbox can be asked for. -/
inductive Request
  | enqueue (e : QueueEntry)
  | flush (takes : QueueEntry → Bool)
  | requeueFront (entries : List QueueEntry)

namespace Request

/-- The entries that wait afterwards if nothing fails. -/
def rest (entries : List QueueEntry) : Request → List QueueEntry
  | enqueue e => entries ++ [e]
  | flush takes => entries.filter fun e => !takes e
  | requeueFront more => more ++ entries

/-- The entries that are taken out if nothing fails. -/
def taken (entries : List QueueEntry) : Request → List QueueEntry
  | flush takes => entries.filter takes
  | _ => []

/-- Whether it is to take entries out. -/
def takesOut : Request → Bool
  | flush _ => true
  | _ => false

/-- Whether the file is to be rewritten for it. There is no need to when nothing is taken out. -/
def writes (entries : List QueueEntry) : Request → Bool
  | flush takes => entries.any takes
  | _ => true

end Request

/-- Answers a request with the entries that are taken out. -/
def answer (q : Outbox) (d : Disk) :
    Request → Outbox × Disk × Except FileError (List QueueEntry)
  | .enqueue e =>
    let (q, d, outcome) := q.enqueue d e
    (q, d, outcome.map fun _ => [])
  | .flush takes => q.flush d takes
  | .requeueFront entries =>
    let (q, d, outcome) := q.requeueFront d entries
    (q, d, outcome.map fun _ => [])

/-- What can happen to an outbox and its disk. -/
inductive Occasion
  | request (r : Request)
  | change (c : Tree.Change)

/-- The outbox and the disk after one occasion. -/
def meet (q : Outbox) (d : Disk) : Occasion → Outbox × Disk
  | .request r =>
    let (q, d, _) := q.answer d r
    (q, d)
  | .change c => (q, { d with tree := (d.tree.change c).1 })

/-- The outbox and the disk after all of the occasions. -/
def after (q : Outbox) (d : Disk) : List Occasion → Outbox × Disk
  | [] => (q, d)
  | occasion :: occasions =>
    let (q, d) := q.meet d occasion
    q.after d occasions

/-- The requests among the occasions, without those to take entries out that failed. -/
def granted (q : Outbox) (d : Disk) : List Occasion → List Request
  | [] => []
  | .change c :: occasions => q.granted (q.meet d (.change c)).2 occasions
  | .request r :: occasions =>
    let (q, d, outcome) := q.answer d r
    if r.takesOut && !outcome.isOk then q.granted d occasions else r :: q.granted d occasions

/-- The outbox in memory that started with the same entries and met the same requests, without those
to take entries out that failed. -/
def twin (q : Outbox) (d : Disk) (past : List Occasion) : Outbox :=
  ((inMemory q.entries).after {} ((q.granted d past).map .request)).1

/-- What an outbox with a file promises for a request, beside an outbox in memory. -/
structure Keeps (p : Path) (q twin : Outbox) (d : Disk) (r : Request) : Prop where
  /-- Until then they hold the same. -/
  entries : q.entries = twin.entries
  /-- What succeeds has the same result. -/
  outcome : ∀ es, (q.answer d r).2.2 = .ok es → (twin.answer {} r).2.2 = .ok es
  /-- What was written is what the outbox holds. -/
  saved : r.writes q.entries → ∀ es, (q.answer d r).2.2 = .ok es →
    load (q.answer d r).2.1.tree p = .ok (q.answer d r).1
  /-- What fails and what writes nothing leaves the content at the path as it was. -/
  untouched : r.writes q.entries = false ∨ (∃ e, (q.answer d r).2.2 = .error e) →
    Tree.Untouched p d.tree (q.answer d r).2.1.tree

/-! ## One request -/

section Answer

variable {p : Path} {q : Outbox} {d : Disk} {r : Request}

private theorem answer_inMemory (memory : q.file = none) (d : Disk) (r : Request) :
    q.answer d r = ({ q with entries := r.rest q.entries }, d, .ok (r.taken q.entries)) := by
  cases r with
  | enqueue e => rw [answer, enqueue_inMemory memory]; rfl
  | flush takes => rw [answer, flush_inMemory memory]; rfl
  | requeueFront entries => rw [answer, requeueFront_inMemory memory]; rfl

/-- What the outbox has written is read back as its entries. -/
theorem load_of_read {t : Tree} {es : List QueueEntry}
    (read : t.read p = .ok (Content.ofText (QueueEntry.writeAll es))) :
    load t p = .ok { entries := es, file := some p } := by
  simp [load, read, entriesOf, readAll_writeAll, Except.map]

private theorem file_of_load {t : Tree} (opened : load t p = .ok q) : q.file = some p := by
  rw [load] at opened
  split at opened
  · next content _ =>
    cases es : entriesOf content with
    | error e => simp [es, Except.map] at opened
    | ok es' =>
      rw [es] at opened
      rw [← Except.ok.inj opened]
  · rw [← Except.ok.inj opened]
  · cases opened

/-- The file is rewritten and the outbox can be read back from it, or it is spared. -/
theorem save_cases (different : p.temporary.names ≠ p.names) (file : q.file = some p) (d : Disk) :
    (∃ d', q.save d = (d', .ok ()) ∧ load d'.tree p = .ok q) ∨
      ∃ d' e, q.save d = (d', .error e) ∧ Tree.Spares p d.tree d'.tree := by
  obtain ⟨entries, _⟩ := q
  obtain rfl := file
  rcases Disk.run_rewrite different (Content.ofText (QueueEntry.writeAll entries)) d with
    ⟨d', done, read⟩ | ⟨d', e, failed, spared⟩
  · exact .inl ⟨d', done, load_of_read read⟩
  · exact .inr ⟨d', e, failed, spared⟩

/-- How a request is answered for which the file is rewritten. -/
theorem answer_of_writes (writes : r.writes q.entries) :
    q.answer d r =
      match ({ q with entries := r.rest q.entries } : Outbox).save d with
      | (d', .ok ()) => ({ q with entries := r.rest q.entries }, d', .ok (r.taken q.entries))
      | (d', .error e) =>
        ({ q with entries := if r.takesOut then q.entries else r.rest q.entries }, d',
          .error e) := by
  cases saved : ({ q with entries := r.rest q.entries } : Outbox).save d with
  | mk d' outcome =>
    -- All three requests save the new entries. They differ in what they keep if that fails.
    cases r with
    | enqueue e =>
      have enqueued : q.enqueue d e = ({ q with entries := q.entries ++ [e] }, d', outcome) := by
        rw [← saved]; rfl
      rw [answer, enqueued]
      cases outcome <;> rfl
    | requeueFront entries =>
      have requeued : q.requeueFront d entries =
          ({ q with entries := entries ++ q.entries }, d', outcome) := by
        rw [← saved]; rfl
      rw [answer, requeued]
      cases outcome <;> rfl
    | flush takes =>
      have some_ : (q.entries.filter takes).isEmpty = false := by
        simpa [Request.writes, List.isEmpty_eq_false_iff, List.filter_eq_nil_iff] using writes
      rw [Request.rest] at saved
      rw [answer, flush]
      simp only [some_, saved]
      cases outcome <;> rfl

/-- A request for which it is not is one to take out what is not there. -/
theorem answer_of_not_writes (idle : r.writes q.entries = false) :
    q.answer d r = (q, d, .ok []) ∧ r.rest q.entries = q.entries ∧ r.taken q.entries = [] := by
  cases r with
  | enqueue e => cases idle
  | requeueFront entries => cases idle
  | flush takes =>
    have nothing : q.entries.filter takes = [] := by
      simpa [Request.writes, List.filter_eq_nil_iff] using idle
    refine ⟨?_, filter_not_eq_self nothing, nothing⟩
    rw [answer, flush, nothing]
    rfl

/-- A request is answered as in memory, and what was written can be read back. Or it fails, and
nothing is taken out and the file is spared. -/
theorem answer_cases (different : p.temporary.names ≠ p.names) (file : q.file = some p) (d : Disk)
    (r : Request) :
    (∃ d', q.answer d r =
        ({ q with entries := r.rest q.entries }, d', .ok (r.taken q.entries)) ∧
      if r.writes q.entries then load d'.tree p = .ok { q with entries := r.rest q.entries }
      else d' = d) ∨
    ∃ d' e, q.answer d r =
        ({ q with entries := if r.takesOut then q.entries else r.rest q.entries }, d', .error e) ∧
      Tree.Spares p d.tree d'.tree := by
  cases writes : r.writes q.entries with
  | false =>
    obtain ⟨answered, rest, taken⟩ := answer_of_not_writes (d := d) writes
    rw [answered, rest, taken]
    exact .inl ⟨d, rfl, rfl⟩
  | true =>
    rw [answer_of_writes writes]
    rcases save_cases (q := { q with entries := r.rest q.entries }) different file d with
      ⟨d', done, loads⟩ | ⟨d', e, failed, spared⟩
    · rw [done]
      exact .inl ⟨d', rfl, loads⟩
    · rw [failed]
      exact .inr ⟨d', e, rfl, spared⟩

private theorem wellFormed_save (q : Outbox) (ordered : d.tree.WellFormed) :
    (q.save d).1.tree.WellFormed := by
  rw [save]
  split
  · exact ordered
  · exact Disk.wellFormed_run ordered _

private theorem wellFormed_answer (ordered : d.tree.WellFormed) (q : Outbox) (r : Request) :
    (q.answer d r).2.1.tree.WellFormed := by
  cases writes : r.writes q.entries with
  | false =>
    rw [(answer_of_not_writes writes).1]
    exact ordered
  | true =>
    have saved := wellFormed_save { q with entries := r.rest q.entries } ordered
    rw [answer_of_writes writes]
    split <;> rename_i heq <;> rw [heq] at saved <;> exact saved

/-- What was said of a request, from what holds before it. -/
theorem keeps_of_entries (different : p.temporary.names ≠ p.names) (file : q.file = some p)
    (ordered : d.tree.WellFormed) {twin : Outbox} (memory : twin.file = none)
    (same : q.entries = twin.entries) (r : Request) : Keeps p q twin d r := by
  -- The file was rewritten or spared, and the answer tells which.
  rcases answer_cases different file d r with ⟨d', answered, written⟩ | ⟨d', e, failed, spared⟩
  · constructor
    case entries => exact same
    case outcome =>
      rw [answered, answer_inMemory memory, ← same]
      exact fun es result => result
    case saved =>
      intro writes es result
      rw [if_pos writes] at written
      rw [answered]
      exact written
    case untouched =>
      rintro (idle | ⟨e, failed⟩)
      · rw [if_neg (by simp [idle])] at written
        rw [answered, written]
        exact (Tree.Spares.refl p d.tree).untouched ordered
      · simp [answered] at failed
  · constructor
    case entries => exact same
    case outcome => simp [failed]
    case saved => simp [failed]
    case untouched =>
      rw [failed]
      exact fun _ => spared.untouched ordered

end Answer

/-! ## Many requests -/

section Past

variable {p : Path} {q : Outbox} {d : Disk}

private theorem after_inMemory (es : List QueueEntry) (d : Disk) (rs : List Request) :
    (inMemory es).after d (rs.map .request) =
      (inMemory (rs.foldl (fun es r => r.rest es) es), d) := by
  induction rs generalizing es with
  | nil => rfl
  | cons r rs ih =>
    rw [List.map_cons, after, meet, answer_inMemory rfl]
    exact ih _

private theorem twin_eq (q : Outbox) (d : Disk) (past : List Occasion) :
    q.twin d past =
      inMemory ((q.granted d past).foldl (fun es r => r.rest es) q.entries) := by
  rw [twin, after_inMemory]

/-- After any past the outbox still has its file, and it holds what the one in memory does. -/
theorem after_spec (different : p.temporary.names ≠ p.names) (file : q.file = some p)
    (ordered : d.tree.WellFormed) (past : List Occasion) :
    (q.after d past).1.file = some p ∧ (q.after d past).2.tree.WellFormed ∧
      (q.after d past).1.entries = (q.twin d past).entries := by
  induction past generalizing q d with
  | nil => exact ⟨file, ordered, rfl⟩
  | cons occasion past ih =>
    cases occasion with
    | change c => exact ih file (ordered.change c)
    | request r =>
      have ordered' := wellFormed_answer ordered q r
      rw [twin_eq, after, meet, granted]
      rcases answer_cases different file d r with ⟨d', answered, -⟩ | ⟨d', e, failed, -⟩
      · rw [answered] at ordered' ⊢
        have later := ih (q := { q with entries := r.rest q.entries }) file ordered'
        rw [twin_eq] at later
        simpa [Except.isOk, Except.toBool] using later
      · rw [failed] at ordered' ⊢
        have later := ih (q := { q with
          entries := if r.takesOut then q.entries else r.rest q.entries }) file ordered'
        rw [twin_eq] at later
        cases out : r.takesOut <;> simpa [Except.isOk, Except.toBool, out] using later

/-- Every promise is kept, whatever has happened to the outbox and its disk and whatever faults the
disk has, if the new version of the file is written to another one first. -/
theorem answers_durably (different : p.temporary.names ≠ p.names) (ordered : d.tree.WellFormed)
    (opened : load d.tree p = .ok q) (past : List Occasion) (r : Request) :
    Keeps p (q.after d past).1 (q.twin d past) (q.after d past).2 r := by
  obtain ⟨file, ordered', same⟩ := after_spec different (file_of_load opened) ordered past
  exact keeps_of_entries different file ordered' (by rw [twin_eq]; rfl) same r

end Past

end Outbox

/-! ### A detour

A letter waits in a drawer. Another one is added, and the disk fails when both are to be taken out.
-/

namespace Detour

def letter (body : String) : QueueEntry :=
  let desk : RoomId := ⟨"desk", by decide⟩
  ⟨desk, { kind := .text, author := ⟨"bob", by decide⟩, roomId := desk, body, reply := none }⟩

/-- What a file holds in which one letter waits. -/
def oneLetter : Content := Content.ofText (QueueEntry.writeAll [letter "first"])

def drawer : Path := .ofText "drawer.json"

def desk : Disk where
  tree := ⟨[(["drawer.json"], .file oneLetter)]⟩
  faults := [none, none, none, none, some ⟨.busy, 7⟩]

def errands : List Outbox.Occasion := [
  .request (.enqueue (letter "second")), .request (.flush fun _ => true)]

end Detour

theorem answers_durably_detour :
    let waiting : Outbox := { entries := [Detour.letter "first"], file := some Detour.drawer }
    Detour.drawer.temporary.names ≠ Detour.drawer.names ∧ Detour.desk.tree.WellFormed ∧
      Outbox.load Detour.desk.tree Detour.drawer = .ok waiting ∧
      (waiting.after Detour.desk Detour.errands).1.entries =
        [Detour.letter "first", Detour.letter "second"] ∧
      (waiting.granted Detour.desk Detour.errands).length = 1 ∧
      Outbox.Keeps Detour.drawer (waiting.after Detour.desk Detour.errands).1
        (waiting.twin Detour.desk Detour.errands) (waiting.after Detour.desk Detour.errands).2
        (.flush fun _ => true) := by
  have different : Detour.drawer.temporary.names ≠ Detour.drawer.names := by decide
  have ordered : Detour.desk.tree.WellFormed := Tree.wellFormed_of_nodes (by decide)
  have opened := Outbox.load_of_read (show Detour.desk.tree.read Detour.drawer = _ from rfl)
  exact ⟨different, ordered, opened, by decide, by decide,
    Outbox.answers_durably different ordered opened _ _⟩

end ChatClient
