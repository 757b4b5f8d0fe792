import ChatClient.Json.Problem
import ChatClient.Text.Digit

/-!
# Numbers

No field of a message is a number, so numbers are read only to be passed over or refused. Even so a
number has to be well formed: a zero stands alone, a point and an exponent need digits. Where a
number stands in the place of something else it must moreover be one that a double can hold; one
that is too large counts as malformed and not as a value of the wrong type.

## Main definitions

* `scanNumber`: the digits and the exponent of a number, and the text after it
* `Scaled.fits`: a double can hold the number
* `skipNumber`, `numberProblem`: the two uses
-/

namespace ChatClient.Json

open Text (isDigit digitValue)

/-- The number `digits · 10 ^ exponent`, its sign apart. -/
structure Scaled where
  digits : Nat
  exponent : Int
  deriving DecidableEq, Repr

/-- The largest number of 64 bits. Digits that do not fit beside those before them are left out. -/
def wordLimit : Nat := 18446744073709551615

/-- Appends digits to `n` as long as the number stays within 64 bits. Returns the number and how
many digits were taken; those after the first that does not fit are left out. -/
def appendDigits (n : Nat) : List Char → Nat × Nat
  | [] => (n, 0)
  | c :: cs =>
    if 10 * n + digitValue c ≤ wordLimit then
      let (m, taken) := appendDigits (10 * n + digitValue c) cs
      (m, taken + 1)
    else (n, 0)

/-- The digits in front of the point or the exponent, and the rest. -/
def scanWhole : List Char → Except Problem (List Char × List Char)
  | [] => .error .truncated
  | c :: cs =>
    if c = '0' then
      if (cs.head?.map isDigit).getD false then .error .malformed else .ok (['0'], cs)
    else if isDigit c then .ok (c :: cs.takeWhile isDigit, cs.dropWhile isDigit)
    else .error .malformed

/-- The digits after the point, if there is one, and the rest. -/
def scanFraction : List Char → Except Problem (List Char × List Char)
  | '.' :: cs =>
    match cs.takeWhile isDigit, cs.dropWhile isDigit with
    | [], [] => .error .truncated
    | [], _ => .error .malformed
    | digits, rest => .ok (digits, rest)
  | cs => .ok ([], cs)

/-- The exponent, zero if there is none, and the rest. -/
def scanExponent : List Char → Except Problem (Int × List Char)
  | [] => .ok (0, [])
  | c :: cs =>
    if c = 'e' ∨ c = 'E' then
      let (negative, cs) : Bool × List Char :=
        match cs with
        | '+' :: cs => (false, cs)
        | '-' :: cs => (true, cs)
        | cs => (false, cs)
      match cs.takeWhile isDigit, cs.dropWhile isDigit with
      | [], [] => .error .truncated
      | [], _ => .error .malformed
      | digits, rest =>
        let n : Int := Text.decimal digits
        .ok (if negative then -n else n, rest)
    else .ok (0, c :: cs)

/-- Takes an unsigned number from the front of a text. -/
def scanNumber : Reader Scaled := fun cs => do
  let (whole, cs) ← scanWhole cs
  let (fraction, cs) ← scanFraction cs
  let (exponent, cs) ← scanExponent cs
  let (n, takenWhole) := appendDigits 0 whole
  let (n, takenFraction) := appendDigits n fraction
  return (⟨n, exponent + (whole.length - takenWhole : Nat) - takenFraction⟩, cs)

/-- Rounded to 53 significant bits; a number half way between two goes to the one whose last bit is
zero. -/
def roundSignificand (n : Nat) : Nat :=
  let unit := 1 <<< (n.log2 + 1 - 53)
  let down := n / unit
  let above := n % unit
  if 2 * above > unit ∨ (2 * above = unit ∧ down % 2 = 1) then (down + 1) * unit else down * unit

/-- The power of ten with the given exponent. -/
def powerOfTen : Nat → Nat
  | 0 => 1
  | n + 1 => 10 * powerOfTen n

/-- The least number that rounds to more than a double can hold. -/
def overflowBound : Nat := 1 <<< 1024 - 1 <<< 970

/-- A double can hold the number: the product of the digits and the power of ten, each rounded
first, stays below the bound. -/
def Scaled.fits (x : Scaled) : Bool :=
  x.digits == 0 || x.exponent ≤ 0 ||
    (x.exponent ≤ 308 &&
      roundSignificand x.digits * roundSignificand (powerOfTen x.exponent.toNat) < overflowBound)

example : (⟨17976931348623157, 292⟩ : Scaled).fits = true := by decide +kernel
example : (⟨18, 307⟩ : Scaled).fits = false := by decide +kernel

/-- The rest of a text after an unsigned number. One that breaks off is malformed like any other. -/
def skipNumber (cs : List Char) : Except Problem (List Char) :=
  match scanNumber cs with
  | .ok (_, rest) => .ok rest
  | .error _ => .error .malformed

/-- What is wrong with a text that has an unsigned number where something else is wanted. -/
def numberProblem (cs : List Char) : Problem :=
  match scanNumber cs with
  | .ok (x, _) => if x.fits then .mismatch else .malformed
  | .error problem => problem

example : numberProblem "1.".toList = .truncated := by decide +kernel
example : numberProblem "1e400]".toList = .malformed := by decide +kernel
example : numberProblem "01".toList = .malformed := by decide +kernel

end ChatClient.Json
