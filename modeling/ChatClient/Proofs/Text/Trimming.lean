import ChatClient.Text.Blank
import Mathlib.Data.List.DropRight

/-!
# Texts without blanks at their ends

Trimming takes away the blanks at both ends of a text and nothing else. So there are none where it
has been, a text that has none there is left as it is, and blanks around a text make no difference.

## Main definitions

* `Text.Trimmed`: neither end is blank

## Main results

* `trimChars_eq_self_iff`: trimming leaves the trimmed texts as they are, and no others
* `trimChars_append`: blanks around a text make no difference
* `splitAtBlank?_append`: where a text is cut
* `Trimmed.split`: what becomes of a trimmed text that is cut
-/

namespace ChatClient.Text

variable {cs before after : List Char}

/-- Neither end of a text is blank. -/
structure Trimmed (cs : List Char) : Prop where
  head : ∀ c, cs.head? = some c → isBlank c = false
  last : ∀ c, cs.getLast? = some c → isBlank c = false

theorem trimmed_nil : Trimmed [] := ⟨by simp, by simp⟩

/-- Where nothing is blank there is nothing to trim. -/
theorem trimmed_of_ink (ink : ∀ c ∈ cs, isBlank c = false) : Trimmed cs :=
  ⟨fun c first => ink c (List.mem_of_head? first), fun c last => ink c (List.mem_of_getLast? last)⟩

/-- What stands between two texts is not at an end, be it blank or not. -/
theorem Trimmed.around (h : Trimmed before) (h' : Trimmed after) (some_ : before ≠ [])
    (some' : after ≠ []) (between : List Char) : Trimmed (before ++ between ++ after) where
  head c first := by
    rw [List.append_assoc, List.head?_append_of_ne_nil _ some_] at first
    exact h.head c first
  last c last := by
    rw [List.getLast?_append_of_ne_nil _ some'] at last
    exact h'.last c last

/-! ## Trimming -/

/-- Nothing is dropped from a text that does not begin with a blank. -/
theorem dropWhile_of_head (head : ∀ c, cs.head? = some c → isBlank c = false) :
    cs.dropWhile isBlank = cs := by
  cases cs with
  | nil => rfl
  | cons c cs => simp [head c rfl]

/-- What is trimmed already stays as it is. -/
theorem Trimmed.trimChars_eq (h : Trimmed cs) : trimChars cs = cs := by
  have last : cs.reverse.dropWhile isBlank = cs.reverse := by
    apply dropWhile_of_head
    rw [List.head?_reverse]
    exact h.last
  rw [trimChars, dropWhile_of_head h.head, dropBlanksEnd, last, List.reverse_reverse]

private theorem head?_dropWhile {c : Char} (first : (cs.dropWhile isBlank).head? = some c) :
    isBlank c = false := by
  have head := List.head?_dropWhile_not isBlank cs
  rw [first] at head
  exact head

/-- After trimming nothing blank is left at either end. -/
theorem trimmed_trimChars (cs : List Char) : Trimmed (trimChars cs) where
  head c first := by
    -- What is left begins where it began before its end was cut.
    obtain ⟨rest, whole⟩ : trimChars cs <+: cs.dropWhile isBlank := List.rdropWhile_prefix isBlank _
    apply head?_dropWhile
    rw [← whole, List.head?_append, first, Option.some_or]
  last c last := by
    rw [trimChars, dropBlanksEnd, List.getLast?_reverse] at last
    exact head?_dropWhile last

/-- To be trimmed is to stay the same when trimmed. -/
theorem trimChars_eq_self_iff : trimChars cs = cs ↔ Trimmed cs := by
  constructor
  · intro same
    rw [← same]
    exact trimmed_trimChars cs
  · exact Trimmed.trimChars_eq

/-- It is the same with whole texts. -/
theorem trim_eq_self_iff {s : String} : trim s = s ↔ Trimmed s.toList := by
  rw [← trimChars_eq_self_iff, trim, ← String.toList_inj, String.toList_ofList]

/-- Only blanks are taken away. -/
theorem isBlank_of_trimChars_eq_nil (nothing : trimChars cs = []) : ∀ c ∈ cs, isBlank c = true := by
  intro c mem
  rw [← List.takeWhile_append_dropWhile (p := isBlank) (l := cs), List.mem_append] at mem
  rcases mem with early | late
  · exact List.mem_takeWhile_imp early
  · exact List.rdropWhile_eq_nil_iff.1 nothing c late

private theorem dropBlanksEnd_append (blank : ∀ c ∈ after, isBlank c = true) :
    dropBlanksEnd (cs ++ after) = dropBlanksEnd cs := by
  have end_ : ∀ c ∈ after.reverse, isBlank c = true := by simpa using blank
  rw [dropBlanksEnd, List.reverse_append, List.dropWhile_append_of_pos end_, dropBlanksEnd]

/-- What is blank at either end makes no difference. -/
theorem trimChars_append (blank : ∀ c ∈ before, isBlank c = true)
    (blank' : ∀ c ∈ after, isBlank c = true) :
    trimChars (before ++ cs ++ after) = trimChars cs := by
  rw [List.append_assoc, trimChars, List.dropWhile_append_of_pos blank, List.dropWhile_append]
  split
  -- Without ink all is taken away from the left.
  · next empty =>
    have nothing : after.dropWhile isBlank = [] := List.dropWhile_eq_nil_iff.2 blank'
    rw [nothing, trimChars, List.isEmpty_iff.1 empty]
  · exact dropBlanksEnd_append blank'

/-! ## Cutting -/

/-- A text is cut at the first character that is blank. -/
theorem splitAtBlank?_append {b : Char} (ink : ∀ c ∈ before, isBlank c = false)
    (blank : isBlank b = true) :
    splitAtBlank? (before ++ b :: after) = some (before, after) := by
  induction before with
  | nil => simp [splitAtBlank?, blank]
  | cons c before ih =>
    obtain ⟨first, others⟩ := List.forall_mem_cons.1 ink
    simp [splitAtBlank?, first, ih others]

/-- When a trimmed text is cut there is something on both sides of the blank. -/
theorem Trimmed.split (h : Trimmed cs) (cut : splitAtBlank? cs = some (before, after)) :
    before ≠ [] ∧ trimChars after ≠ [] := by
  obtain ⟨-, b, blank, rfl⟩ := splitAtBlank?_eq_some cut
  constructor
  · rintro rfl
    have ink := h.head b rfl
    rw [blank] at ink
    contradiction
  · intro nothing
    -- If nothing but blanks follows the text ends in one.
    have last := h.last
    rw [List.getLast?_append, List.getLast?_cons, Option.some_or] at last
    have ink := last _ rfl
    cases end_ : after.getLast? with
    | none =>
      rw [end_, Option.getD_none, blank] at ink
      contradiction
    | some c =>
      rw [end_, Option.getD_some,
        isBlank_of_trimChars_eq_nil nothing c (List.mem_of_getLast? end_)] at ink
      contradiction

end ChatClient.Text
