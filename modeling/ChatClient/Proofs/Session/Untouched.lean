import ChatClient.Proofs.Session.Overtaking
import ChatClient.Proofs.Session.Setting
import Mathlib.Tactic.Common

/-!
# Links that nobody has touched

Between the moment at which a server opens a link and the moment at which the client learns of it
nobody uses the link. It is the only one that its outcome tells of, it is not in use, and no frame
was taken on it. What the client does with the outcome then decides whether this remains so.

The numbers of the sessions play no part in this, so it holds in every run, however long.

## Main definitions

* `Client.Untouched`: the invariant

## Main results

* `untouched_step`, `untouched_run`: it is kept by every step and along every run
-/

namespace ChatClient.Client

/-- Each outcome that has not been looked at tells of a link of its own, which is not in use and on
which nothing was said. A client that has stopped looks at no more outcomes. -/
structure Untouched (c : Client) : Prop where
  known : c.Known
  free : ∀ o ∈ c.outcomes, ∀ i, o.link = some i → c.link ≠ some i
  silent : ∀ o ∈ c.outcomes, ∀ i f, o.link = some i → (i, f) ∉ c.accepted
  distinct : (c.outcomes.filterMap Outcome.link).Nodup
  said : ∀ i f, (i, f) ∈ c.accepted → i < c.links.length
  idle : c.stopped = true → c.outcomes = []

variable {c : Client}

/-- An outcome after a step was there before it, or the link that it tells of is beyond those that
were there. -/
theorem mem_outcomes_step (h : Happening) {o : Outcome} (ho : o ∈ (c.step h).outcomes) :
    o ∈ c.outcomes ∨ ∀ i, o.link = some i → i = c.links.length := by
  rcases c.outcomes_step h with fewer | ⟨-, o', more, new⟩
  · exact .inl (fewer.subset ho)
  · rw [more] at ho
    rcases List.mem_append.1 ho with old | last
    · exact .inl old
    · obtain rfl := List.mem_singleton.1 last
      exact .inr fun i link => (new i link).1

namespace Untouched

variable (u : c.Untouched) (h : Happening)
include u

private theorem free_step {o : Outcome} (ho : o ∈ (c.step h).outcomes) {i : Nat}
    (link : o.link = some i) :
    (c.step h).link ≠ some i := by
  rcases c.link_step h with (gone | ⟨same, -⟩) | ⟨-, o', os, queued, rest, used⟩
  · simp [gone]
  · rw [same]
    rcases mem_outcomes_step h ho with old | new
    · exact u.free o old i link
    · intro held
      have inside := u.known.link i held
      have beyond := new i link
      omega
  -- The link of the oldest outcome comes into use, and the others tell of other links.
  · intro held
    have apart := u.distinct
    rw [queued, List.filterMap_cons_some (used.symm.trans held), List.nodup_cons] at apart
    rw [rest] at ho
    exact apart.1 (List.mem_filterMap.2 ⟨o, ho, link⟩)

private theorem silent_step {o : Outcome} (ho : o ∈ (c.step h).outcomes) {i : Nat} {f : Wire.Frame}
    (link : o.link = some i) : (i, f) ∉ (c.step h).accepted := by
  obtain ⟨new, accepted, held⟩ := c.step_says h
  rw [accepted]
  intro taken
  rcases List.mem_append.1 taken with before | now
  · rcases mem_outcomes_step h ho with old | fresh
    · exact u.silent o old i f link before
    · have inside := u.said i f before
      have beyond := fresh i link
      omega
  · exact u.free_step h ho link (held (i, f) now)

private theorem distinct_step : ((c.step h).outcomes.filterMap Outcome.link).Nodup := by
  rcases c.outcomes_step h with fewer | ⟨-, o, more, new⟩
  · exact u.distinct.sublist (fewer.filterMap _)
  · rw [more, List.filterMap_append]
    cases link : o.link with
    | none => simpa [link] using u.distinct
    | some i =>
      have last : [o].filterMap Outcome.link = [i] := by simp [link]
      rw [last, List.nodup_append]
      refine ⟨u.distinct, by simp, fun j mem k single same => ?_⟩
      obtain ⟨o', ho', link'⟩ := List.mem_filterMap.1 mem
      have inside := u.known.outcomes o' ho' j link'
      have beyond := (new i link).1
      have only := List.mem_singleton.1 single
      omega

private theorem said_step {i : Nat} {f : Wire.Frame} (taken : (i, f) ∈ (c.step h).accepted) :
    i < (c.step h).links.length := by
  have longer := Network.length_le_of_grows (c.grows_step h)
  obtain ⟨new, accepted, held⟩ := c.step_says h
  rw [accepted] at taken
  rcases List.mem_append.1 taken with before | now
  · exact Nat.lt_of_lt_of_le (u.said i f before) longer
  · exact (known_step u.known h).link i (held (i, f) now)

private theorem idle_step (stopped : (c.step h).stopped = true) : (c.step h).outcomes = [] := by
  by_cases last : c.stopped = false ∧ h = .turn (.command .shutdown)
  · obtain ⟨running, rfl⟩ := last
    rw [step_of_running running]
    rfl
  · have before : c.stopped = true := by
      by_contra running
      have goesOn : h ≠ .turn (.command .shutdown) :=
        fun same => last ⟨by simpa using running, same⟩
      rw [c.stopped_step_of_ne goesOn] at stopped
      contradiction
    rcases c.outcomes_step h with fewer | ⟨running, -⟩
    · rw [u.idle before] at fewer
      exact List.sublist_nil.1 fewer
    · exact absurd (before.symm.trans running) (by decide)

end Untouched

/-- Every step keeps it. -/
theorem untouched_step (u : c.Untouched) (h : Happening) : (c.step h).Untouched where
  known := known_step u.known h
  free _ ho _ link := u.free_step h ho link
  silent _ ho _ _ link := u.silent_step h ho link
  distinct := u.distinct_step h
  said _ _ taken := u.said_step h taken
  idle stopped := u.idle_step h stopped

/-- So does every run. -/
theorem untouched_run (u : c.Untouched) (hs : List Happening) : (c.run hs).Untouched := by
  induction hs generalizing c with
  | nil => exact u
  | cons h hs ih => exact ih (untouched_step u h)

/-- A client that has just been made awaits no outcome. -/
theorem untouched_start (profile : Profile) (backoff : Backoff) (outbox : Outbox) (chat : Chat)
    (disk : Disk) (clock : Timestamp) :
    (start profile backoff outbox chat disk clock).Untouched := by
  refine ⟨known_start profile backoff outbox chat disk clock, ?_, ?_, ?_, ?_, ?_⟩ <;> simp [start]

/-- A client that still looks at outcomes has not stopped. -/
theorem Untouched.running (u : c.Untouched) {o : Outcome} (ho : o ∈ c.outcomes) :
    c.stopped = false := by
  by_contra stopped
  rw [u.idle (by simpa using stopped)] at ho
  contradiction

end ChatClient.Client
