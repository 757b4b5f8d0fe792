/-!
# Reading JSON from left to right

A text is read once, from left to right, into the type that is wanted. The first problem met decides
what is wrong with the text, whatever comes after it: a value of the wrong type is reported even if
the text breaks off later, and a stray character is reported even if the types would not have fitted
either.

## Main definitions

* `Json.Problem`: the three ways in which a text fails
* `Json.Reader`: a function that takes one value from the front of a text
* `Json.skipSpace`, `Json.literal`: the smallest steps of a reader
-/

namespace ChatClient.Json

/-- What is wrong with a text. -/
inductive Problem
  /-- A character that no JSON text has at this place. -/
  | malformed
  /-- Well formed so far, but not what the wanted type calls for. -/
  | mismatch
  /-- The text ends where more is needed. -/
  | truncated
  deriving DecidableEq, Repr

/-- Takes one value from the front of a text and returns it with the rest. -/
abbrev Reader (α : Type) := List Char → Except Problem (α × List Char)

/-- Two outcomes of a reader can be compared when two values can. -/
instance decidableEqOutcome {α : Type} [DecidableEq α] : DecidableEq (Except Problem α)
  | .ok a, .ok b => if h : a = b then isTrue (by rw [h]) else isFalse (by simpa using h)
  | .error a, .error b => if h : a = b then isTrue (by rw [h]) else isFalse (by simpa using h)
  | .ok _, .error _ => isFalse (by simp)
  | .error _, .ok _ => isFalse (by simp)

/-- The four characters that may stand between the parts of a JSON text. -/
def isSpace (c : Char) : Bool :=
  c == ' ' || c == '\t' || c == '\n' || c == '\r'

def skipSpace (cs : List Char) : List Char :=
  cs.dropWhile isSpace

theorem skipSpace_append {ws cs : List Char} (h : ∀ c ∈ ws, isSpace c = true) :
    skipSpace (ws ++ cs) = skipSpace cs := by
  induction ws with
  | nil => rfl
  | cons c ws ih =>
    have hc : isSpace c = true := h c (by simp)
    have ih := ih fun d hd => h d (by simp [hd])
    simpa [skipSpace, hc] using ih

theorem skipSpace_cons {c : Char} {cs : List Char} (h : isSpace c = false) :
    skipSpace (c :: cs) = c :: cs := by
  simp [skipSpace, h]

/-- The rest of a text that starts with the given word. -/
def literal : (word : List Char) → List Char → Except Problem (List Char)
  | [], cs => .ok cs
  | _ :: _, [] => .error .truncated
  | w :: word, c :: cs => if c = w then literal word cs else .error .malformed

@[simp] theorem literal_append (word cs : List Char) : literal word (word ++ cs) = .ok cs := by
  induction word with
  | nil => rfl
  | cons w word ih => simpa [literal] using ih

/-- The text after the next character other than space, which must be `c`. -/
def expect (c : Char) (cs : List Char) : Except Problem (List Char) :=
  match skipSpace cs with
  | [] => .error .truncated
  | d :: rest => if d = c then .ok rest else .error .malformed

end ChatClient.Json
