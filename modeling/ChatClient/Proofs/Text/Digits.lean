import ChatClient.Text.Digit
import Mathlib.Algebra.Order.Ring.Nat
import Mathlib.Tactic.Common
import Mathlib.Tactic.Ring

/-!
# Numbers in digits

Digits at the front of a text end where something else begins. A number that is written with a fixed
count of digits, zeros in front included, is read back from them, and a count of digits is how some
number is written.

## Main definitions

* `EndsDigits`: the text does not go on with a digit
* `padded`: a number in a fixed count of digits

## Main results

* `takeWhile_digits`, `dropWhile_digits`: digits are taken up to where they end
* `digitChar_digitValue`, `digitValue_digitChar`: digits and what they count for
* `decimal_append`: digits in front count for as many tens as there are digits after them
-/

namespace ChatClient.Text

/-! ## Where digits end -/

/-- The text does not go on with a digit. -/
def EndsDigits (rest : List Char) : Prop := ∀ c ∈ rest.head?, isDigit c = false

section Ends

variable {ds rest : List Char} (digits : ∀ c ∈ ds, isDigit c = true) (ends : EndsDigits rest)
include digits ends

/-- Digits are taken up to the first character that is none. -/
theorem takeWhile_digits : (ds ++ rest).takeWhile isDigit = ds := by
  rw [List.takeWhile_append_of_pos digits]
  cases rest with
  | nil => simp
  | cons c rest =>
    have stop : isDigit c = false := ends c rfl
    simp [stop]

/-- What is left begins there. -/
theorem dropWhile_digits : (ds ++ rest).dropWhile isDigit = rest := by
  rw [List.dropWhile_append_of_pos digits]
  cases rest with
  | nil => rfl
  | cons c rest =>
    have stop : isDigit c = false := ends c rfl
    simp [stop]

end Ends

/-! ## Single digits -/

private theorem toNat_of_isDigit {c : Char} (digit : isDigit c = true) :
    48 ≤ c.toNat ∧ c.toNat ≤ 57 := by
  simpa [isDigit, Char.le_def, UInt32.le_iff_toNat_le] using digit

/-- The value of a digit is below ten. -/
theorem digitValue_lt {c : Char} (digit : isDigit c = true) : digitValue c < 10 := by
  have range := toNat_of_isDigit digit
  have zero : '0'.toNat = 48 := rfl
  unfold digitValue
  omega

/-- A digit is known by its value. -/
theorem digitChar_digitValue {c : Char} (digit : isDigit c = true) :
    Nat.digitChar (digitValue c) = c := by
  have range := toNat_of_isDigit digit
  have zero : '0'.toNat = 48 := rfl
  apply Char.toNat_inj.mp
  rw [Nat.toNat_digitChar_of_lt_ten (digitValue_lt digit), digitValue]
  omega

variable {n : Nat}

theorem isDigit_digitChar (small : n < 10) : isDigit (Nat.digitChar n) = true := by
  have all : ∀ d : Fin 10, isDigit (Nat.digitChar d.val) = true := by decide
  exact all ⟨n, small⟩

/-- A value below ten is known by its digit. -/
theorem digitValue_digitChar (small : n < 10) : digitValue (Nat.digitChar n) = n := by
  have all : ∀ d : Fin 10, digitValue (Nat.digitChar d.val) = d.val := by decide
  exact all ⟨n, small⟩

/-! ## Many digits -/

private theorem foldl_digits (m : Nat) (ds : List Char) :
    ds.foldl (fun n c => 10 * n + digitValue c) m = m * 10 ^ ds.length + decimal ds := by
  induction ds generalizing m with
  | nil => simp [decimal]
  | cons d ds ih =>
    rw [decimal, List.foldl_cons, List.foldl_cons, ih, ih (10 * 0 + digitValue d), List.length_cons]
    ring

@[simp] theorem decimal_nil : decimal [] = 0 := rfl

/-- Digits in front count for as many tens as there are digits after them. -/
theorem decimal_append (ds ds' : List Char) :
    decimal (ds ++ ds') = decimal ds * 10 ^ ds'.length + decimal ds' := by
  rw [decimal, List.foldl_append, foldl_digits]
  rfl

/-- The first digit counts for as much as there are digits behind it. -/
theorem decimal_cons (d : Char) (ds : List Char) :
    decimal (d :: ds) = digitValue d * 10 ^ ds.length + decimal ds := by
  rw [← List.singleton_append, decimal_append]
  simp [decimal]

/-- A number has no more digits than are written. -/
theorem decimal_lt {ds : List Char} (digits : ∀ c ∈ ds, isDigit c = true) :
    decimal ds < 10 ^ ds.length := by
  induction ds with
  | nil => simp
  | cons d ds ih =>
    obtain ⟨digit, digits⟩ := List.forall_mem_cons.1 digits
    have front : (digitValue d + 1) * 10 ^ ds.length ≤ 10 * 10 ^ ds.length :=
      Nat.mul_le_mul_right _ (digitValue_lt digit)
    have back := ih digits
    rw [decimal_cons, List.length_cons, Nat.pow_succ']
    rw [Nat.add_mul] at front
    omega

/-- However many zeros there are, they come to nothing. -/
theorem decimal_zeros (count : Nat) : decimal (List.replicate count '0') = 0 := by
  induction count with
  | zero => rfl
  | succ count ih =>
    rw [List.replicate_succ, decimal_cons, ih]
    simp [digitValue]

/-- A number in a fixed count of digits, with zeros in front. -/
def padded : (count n : Nat) → List Char
  | 0, _ => []
  | count + 1, n => Nat.digitChar (n / 10 ^ count) :: padded count (n % 10 ^ count)

/-- A number is padded to two digits. -/
theorem twoDigits_eq (n : Nat) : twoDigits n = String.ofList (padded 2 n) := by
  simp [twoDigits, padded]

end ChatClient.Text
