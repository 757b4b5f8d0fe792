/-!
# Looking up in lists of pairs

A list of pairs gives a key the value of its first pair. To store another value for a key, the pairs
of that key are taken out and a new one is put in front.

## Main definitions

* `assign`: the list with another value for a key

## Main results

* `lookup_assign_self`, `lookup_assign_of_ne`: the key has the new value, every other key the old
  one
-/

namespace ChatClient

variable {κ α : Type} [BEq κ]

/-- The pairs with another value for the key. -/
def assign (pairs : List (κ × α)) (key : κ) (value : α) : List (κ × α) :=
  (key, value) :: pairs.filter fun pair => pair.1 != key

variable [LawfulBEq κ]

@[simp] theorem lookup_assign_self (pairs : List (κ × α)) (key : κ) (value : α) :
    (assign pairs key value).lookup key = some value := by
  simp [assign]

/-- Taking out pairs of other keys does not change the value of a key. -/
theorem lookup_filter (pairs : List (κ × α)) (keep : κ → Bool) {key : κ} (h : keep key = true) :
    (pairs.filter fun pair => keep pair.1).lookup key = pairs.lookup key := by
  induction pairs with
  | nil => rfl
  | cons pair pairs ih =>
    obtain ⟨k, a⟩ := pair
    cases kept : keep k with
    | true =>
      rw [List.filter_cons_of_pos (by simpa using kept), List.lookup_cons, List.lookup_cons, ih]
    | false =>
      have other : (key == k) = false := beq_false_of_ne fun same => by simp [same, kept] at h
      rw [List.filter_cons_of_neg (by simp [kept]), List.lookup_cons, other, ih]

theorem lookup_filter_ne (pairs : List (κ × α)) {key other : κ} (h : other ≠ key) :
    (pairs.filter fun pair => pair.1 != key).lookup other = pairs.lookup other :=
  lookup_filter pairs (· != key) (by simpa using h)

theorem lookup_assign_of_ne (pairs : List (κ × α)) {key other : κ} (h : other ≠ key) (value : α) :
    (assign pairs key value).lookup other = pairs.lookup other := by
  rw [assign, List.lookup_cons, beq_false_of_ne h, lookup_filter_ne pairs h]

end ChatClient
