import ChatClient.Json.Problem
import ChatClient.Text.Digit

/-!
# Quoted texts

A text is written between quotes. The quote, the backslash and the control characters are written
as escapes, everything else as it is. The reader accepts any spelling of a character that JSON
allows, among them pairs of escapes for the two halves of a character beyond U+FFFF; a half on its
own is refused.

A text that is not wanted is passed over by `skipQuoted`, which checks the form of the escapes but
not what they stand for, so that there a half on its own does no harm.

## Main definitions

* `quoteBody`, `quote`: the written form
* `readQuoted`, `skipQuoted`: both start after the opening quote

## Main results

* `readQuoted_quoteBody`: reading gives back what was written
-/

namespace ChatClient.Json

open Text (hexDigit?)

/-- The letter that follows the backslash in the short escape of a character. -/
def shortEscape? (c : Char) : Option Char :=
  if c = '"' then some '"'
  else if c = '\\' then some '\\'
  else if c = '\x08' then some 'b'
  else if c = '\x0c' then some 'f'
  else if c = '\n' then some 'n'
  else if c = '\r' then some 'r'
  else if c = '\t' then some 't'
  else none

/-- The character that a letter after the backslash stands for. -/
def unescape? (letter : Char) : Option Char :=
  if letter = '"' then some '"'
  else if letter = '\\' then some '\\'
  else if letter = '/' then some '/'
  else if letter = 'b' then some '\x08'
  else if letter = 'f' then some '\x0c'
  else if letter = 'n' then some '\n'
  else if letter = 'r' then some '\r'
  else if letter = 't' then some '\t'
  else none

/-- The written form of one character. -/
def quoteChar (c : Char) : List Char :=
  match shortEscape? c with
  | some letter => ['\\', letter]
  | none =>
    if c.toNat < 0x20 then
      ['\\', 'u', '0', '0', Nat.digitChar (c.toNat / 16), Nat.digitChar (c.toNat % 16)]
    else [c]

/-- The written form of a text, without the quotes around it. -/
def quoteBody (cs : List Char) : List Char :=
  cs.flatMap quoteChar

/-- The written form of a text. -/
def quote (s : String) : List Char :=
  '"' :: quoteBody s.toList ++ ['"']

/-- The number spelled by four hexadecimal digits. -/
def hexUnit? (a b c d : Char) : Option Nat := do
  return 16 * (16 * (16 * (← hexDigit? a) + (← hexDigit? b)) + (← hexDigit? c)) + (← hexDigit? d)

/-- The length of a text in bytes. -/
def byteLength : List Char → Nat
  | [] => 0
  | c :: cs => c.utf8Size + byteLength cs

/-- What is wrong with a text that does not begin with four hexadecimal digits although it should:
it breaks off if fewer than four bytes of it are left, whatever they are. -/
def hexProblem (cs : List Char) : Problem :=
  if byteLength cs < 4 then .truncated else .malformed

/-- The first half of a character beyond U+FFFF. -/
def isLead (u : Nat) : Bool := 0xD800 ≤ u && u ≤ 0xDBFF

/-- The second half of a character beyond U+FFFF. -/
def isTrail (u : Nat) : Bool := 0xDC00 ≤ u && u ≤ 0xDFFF

/-- The character made of two halves. -/
def joinHalves (lead trail : Nat) : Char :=
  Char.ofNat (0x10000 + (lead - 0xD800) * 0x400 + (trail - 0xDC00))

/-- Reads up to the closing quote; `acc` holds the characters read so far, the last one first. -/
def readQuoted (acc : List Char) : Reader (List Char)
  | [] => .error .truncated
  | c :: cs =>
    if c = '"' then .ok (acc.reverse, cs)
    else if c = '\\' then
      match cs with
      | [] => .error .truncated
      | letter :: cs =>
        if letter = 'u' then
          match cs with
          | h₁ :: h₂ :: h₃ :: h₄ :: cs =>
            match hexUnit? h₁ h₂ h₃ h₄ with
            | none => .error .malformed
            | some lead =>
              if isTrail lead then .error .malformed
              else if isLead lead then
                -- The second half has to follow at once, as an escape too.
                match cs with
                | [] => .error .truncated
                | b :: cs =>
                  if b = '\\' then
                    match cs with
                    | [] => .error .truncated
                    | l :: cs =>
                      if l = 'u' then
                        match cs with
                        | h₅ :: h₆ :: h₇ :: h₈ :: cs =>
                          match hexUnit? h₅ h₆ h₇ h₈ with
                          | none => .error .malformed
                          | some trail =>
                            if isTrail trail then readQuoted (joinHalves lead trail :: acc) cs
                            else .error .malformed
                        | cs => .error (hexProblem cs)
                      else .error .malformed
                  else .error .malformed
              else readQuoted (Char.ofNat lead :: acc) cs
          | cs => .error (hexProblem cs)
        else
          match unescape? letter with
          | none => .error .malformed
          | some d => readQuoted (d :: acc) cs
    else if c.toNat < 0x20 then .error .malformed
    else readQuoted (c :: acc) cs

/-- Passes over a text up to its closing quote. -/
def skipQuoted : List Char → Except Problem (List Char)
  | [] => .error .truncated
  | c :: cs =>
    if c = '"' then .ok cs
    else if c = '\\' then
      match cs with
      | [] => .error .truncated
      | letter :: cs =>
        if letter = 'u' then
          match cs with
          | h₁ :: h₂ :: h₃ :: h₄ :: cs =>
            match hexUnit? h₁ h₂ h₃ h₄ with
            | none => .error .malformed
            | some _ => skipQuoted cs
          | cs => .error (hexProblem cs)
        else
          match unescape? letter with
          | none => .error .malformed
          | some _ => skipQuoted cs
    else if c.toNat < 0x20 then .error .malformed
    else skipQuoted cs

/-! ## Reading what was written -/

theorem unescape?_shortEscape? {c letter : Char} (h : shortEscape? c = some letter) :
    unescape? letter = some c ∧ letter ≠ 'u' := by
  unfold shortEscape? at h
  split at h
  · cases h; subst c; decide
  split at h
  · cases h; subst c; decide
  split at h
  · cases h; subst c; decide
  split at h
  · cases h; subst c; decide
  split at h
  · cases h; subst c; decide
  split at h
  · cases h; subst c; decide
  split at h
  · cases h; subst c; decide
  · cases h

/-- A character that has no short escape is neither the quote nor the backslash. -/
theorem ne_of_shortEscape?_eq_none {c : Char} (h : shortEscape? c = none) :
    c ≠ '"' ∧ c ≠ '\\' := by
  constructor <;> rintro rfl <;> simp [shortEscape?] at h

/-- The six characters that spell a control character. -/
theorem hexUnit?_control {n : Nat} (h : n < 0x20) :
    hexUnit? '0' '0' (Nat.digitChar (n / 16)) (Nat.digitChar (n % 16)) = some n := by
  have hall : ∀ n : Fin 0x20,
      hexUnit? '0' '0' (Nat.digitChar (n.val / 16)) (Nat.digitChar (n.val % 16)) = some n.val := by
    decide
  exact hall ⟨n, h⟩

theorem not_isTrail_of_lt {n : Nat} (h : n < 0x20) : isTrail n = false ∧ isLead n = false := by
  simp [isTrail, isLead]; omega

theorem readQuoted_quoteChar (acc : List Char) (c : Char) (rest : List Char) :
    readQuoted acc (quoteChar c ++ rest) = readQuoted (c :: acc) rest := by
  unfold quoteChar
  cases hs : shortEscape? c with
  | some letter =>
    obtain ⟨hletter, hu⟩ := unescape?_shortEscape? hs
    rw [List.cons_append, List.cons_append, List.nil_append, readQuoted.eq_def]
    simp [hletter, hu]
  | none =>
    obtain ⟨hq, hb⟩ := ne_of_shortEscape?_eq_none hs
    by_cases hc : c.toNat < 0x20
    · simp [readQuoted, hc, hexUnit?_control hc, not_isTrail_of_lt hc]
    · rw [if_neg hc, List.cons_append, List.nil_append, readQuoted.eq_def]
      simp [hc, hq, hb]

/-- Reading gives back what was written. -/
theorem readQuoted_quoteBody (acc cs rest : List Char) :
    readQuoted acc (quoteBody cs ++ '"' :: rest) = .ok (acc.reverse ++ cs, rest) := by
  induction cs generalizing acc with
  | nil => rw [quoteBody, List.flatMap_nil, List.nil_append, readQuoted.eq_def]; simp
  | cons c cs ih =>
    have h := ih (c :: acc)
    simp only [quoteBody, List.flatMap_cons, List.append_assoc] at h ⊢
    rw [readQuoted_quoteChar, h]
    simp

end ChatClient.Json
