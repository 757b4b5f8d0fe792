/-!
# Blank characters and the edges of a text

A character is *blank* when it has the Unicode property `White_Space`. Everything the client cuts
from a line or refuses as an empty identifier is decided by this one class, so trimming, splitting
and the emptiness test agree on every character.

## Main definitions

* `Text.isBlank`: the twenty-five characters of the property
* `Text.trim`: a text without the blanks at its two ends
* `Text.hasInk`: some character of the text is not blank
* `Text.splitAtBlank?`: a text before and after its first blank
-/

namespace ChatClient.Text

/-- The character has the Unicode property `White_Space`. -/
def isBlank (c : Char) : Bool :=
  let n := c.toNat
  (0x9 ≤ n && n ≤ 0xD) || n == 0x20 || n == 0x85 || n == 0xA0 || n == 0x1680 ||
    (0x2000 ≤ n && n ≤ 0x200A) || n == 0x2028 || n == 0x2029 || n == 0x202F || n == 0x205F ||
    n == 0x3000

/-- The class contains the white space of the ASCII range. -/
example : [' ', '\t', '\n', '\r', '\x0b', '\x0c'].all isBlank = true := by decide

/-- Zero-width characters and the separators of the control block are not blank. -/
example : ['\u200b', '\ufeff', '\u180e', '\x1c', '\x1f'].any isBlank = false := by decide

/-- Without the blanks at the end. -/
def dropBlanksEnd (cs : List Char) : List Char :=
  (cs.reverse.dropWhile isBlank).reverse

/-- Without the blanks at both ends. -/
def trimChars (cs : List Char) : List Char :=
  dropBlanksEnd (cs.dropWhile isBlank)

/-- A text without the blanks at its two ends. -/
def trim (s : String) : String :=
  String.ofList (trimChars s.toList)

/-- Some character of the text is not blank. -/
def hasInk (s : String) : Bool :=
  s.toList.any fun c => !isBlank c

theorem hasInk_iff {s : String} : hasInk s = true ↔ ∃ c ∈ s.toList, isBlank c = false := by
  simp [hasInk]

/-- The characters before the first blank and those after it; nothing when no character is blank. -/
def splitAtBlank? : List Char → Option (List Char × List Char)
  | [] => none
  | c :: cs =>
    if isBlank c then some ([], cs)
    else (splitAtBlank? cs).map fun (before, after) => (c :: before, after)

/-- A split loses nothing but the blank it splits at, and that blank is the first one. -/
theorem splitAtBlank?_eq_some {cs before after : List Char}
    (h : splitAtBlank? cs = some (before, after)) :
    (∀ c ∈ before, isBlank c = false) ∧ ∃ b, isBlank b = true ∧ cs = before ++ b :: after := by
  induction cs generalizing before with
  | nil => simp [splitAtBlank?] at h
  | cons c cs ih =>
    by_cases hc : isBlank c = true
    · simp only [splitAtBlank?, hc, if_true, Option.some.injEq, Prod.mk.injEq] at h
      obtain ⟨rfl, rfl⟩ := h
      exact ⟨by simp, c, hc, rfl⟩
    · simp only [splitAtBlank?, hc] at h
      simp only [Bool.false_eq_true, if_false, Option.map_eq_some_iff, Prod.exists,
        Prod.mk.injEq] at h
      obtain ⟨before', after', hsplit, rfl, rfl⟩ := h
      obtain ⟨hbefore, b, hb, hcs⟩ := ih hsplit
      refine ⟨?_, b, hb, by rw [hcs]; rfl⟩
      intro d hd
      rcases List.mem_cons.1 hd with rfl | hd
      · simpa using hc
      · exact hbefore d hd

/-- A text without a blank has no split. -/
theorem splitAtBlank?_eq_none_iff {cs : List Char} :
    splitAtBlank? cs = none ↔ ∀ c ∈ cs, isBlank c = false := by
  induction cs with
  | nil => simp [splitAtBlank?]
  | cons c cs ih => by_cases hc : isBlank c = true <;> simp [splitAtBlank?, hc, ih]

end ChatClient.Text
