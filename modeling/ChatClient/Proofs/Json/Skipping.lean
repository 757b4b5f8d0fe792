import ChatClient.Json.Record
import ChatClient.Proofs.Json.Grammar
import ChatClient.Proofs.Text.Digits
import Mathlib.Tactic.Common

/-!
# Values that are passed over

Whatever is a value can be passed over, however deep it is nested and however long its numbers are.
The induction is on how the value is derived from the grammar. It counts the steps as it goes:
passing over a value takes fewer than twice as many steps as the value has characters, so that the
fuel, which is twice the length of the text, does not run out.

## Main results

* `skipQuoted_of_isQuotable`, `skipNumber_append`: texts and numbers are passed over
* `skips_of_derives`: so is all that the grammar derives, within the steps that its length allows
* `skipValue_append`: values are passed over, with the space in front of them
-/

namespace ChatClient.Json

open Text (isDigit EndsDigits takeWhile_digits dropWhile_digits)

/-! ## Space -/

/-- Space is passed over together with all that follows it. -/
theorem skipSpace_spacing {space cs : List Char} (h : IsSpacing space) :
    skipSpace (space ++ cs) = skipSpace cs :=
  skipSpace_append h

private theorem skipSpace_idem (cs : List Char) : skipSpace (skipSpace cs) = skipSpace cs := by
  induction cs with
  | nil => rfl
  | cons c cs ih =>
    cases hc : isSpace c with
    | true =>
      have skip : skipSpace (c :: cs) = skipSpace cs := by simp [skipSpace, hc]
      rw [skip, ih]
    | false => rw [skipSpace_cons hc, skipSpace_cons hc]

private theorem expect_skipSpace (c : Char) (cs : List Char) :
    expect c (skipSpace cs) = expect c cs := by
  rw [expect, expect, skipSpace_idem]

/-- The character that is expected may come after space. -/
theorem expect_append {c : Char} (nonspace : isSpace c = false) {space : List Char}
    (h : IsSpacing space) (rest : List Char) : expect c (space ++ c :: rest) = .ok rest := by
  rw [expect, skipSpace_spacing h, skipSpace_cons nonspace]
  exact if_pos rfl

/-! ## Texts -/

/-- The letter of a short escape stands for its character, and is not the one that digits follow. -/
theorem unescape?_of_mem {letter c : Char} (escape : (letter, c) ∈ shortEscapes) :
    unescape? letter = some c ∧ letter ≠ 'u' := by
  have all : ∀ p ∈ shortEscapes, unescape? p.1 = some p.2 ∧ p.1 ≠ 'u' := by decide
  exact all _ escape

/-- A quoted text is passed over up to its closing quote, whatever its escapes stand for. -/
theorem skipQuoted_of_isQuotable {cs : List Char} (h : IsQuotable cs) (rest : List Char) :
    skipQuoted (cs ++ '"' :: rest) = .ok rest := by
  induction h with
  | nil =>
    rw [List.nil_append, skipQuoted.eq_def]
    simp
  | plain printable quote backslash _ ih =>
    rw [List.cons_append, skipQuoted.eq_def]
    simp [quote, backslash, Nat.not_lt.mpr printable, ih]
  | short escape _ ih =>
    obtain ⟨stands, letter⟩ := unescape?_of_mem escape
    rw [List.cons_append, List.cons_append, skipQuoted.eq_def]
    simp [stands, letter, ih]
  | unit number _ ih =>
    simp only [List.cons_append]
    rw [skipQuoted.eq_def]
    simp [number, ih]

/-! ## Numbers -/

private theorem scanWhole_append {whole rest : List Char} (h : IsWhole whole)
    (ends : EndsDigits rest) :
    scanWhole (whole ++ rest) = .ok (whole, rest) := by
  cases h with
  | zero =>
    have stop : (rest.head?.map isDigit).getD false = false := by
      cases rest with
      | nil => rfl
      | cons c rest => exact ends c rfl
    simp [scanWhole, stop]
  | @digits c cs nonzero digits =>
    have first : isDigit c = true := digits.2 c (by simp)
    have others : ∀ d ∈ cs, isDigit d = true := fun d hd => digits.2 d (by simp [hd])
    simp [scanWhole, nonzero, first, takeWhile_digits others ends, dropWhile_digits others ends]

private theorem scanFraction_append {fraction rest : List Char} (h : IsFraction fraction)
    (ends : EndsDigits rest) (point : rest.head? ≠ some '.') :
    ∃ digits, scanFraction (fraction ++ rest) = .ok (digits, rest) := by
  cases h with
  | none =>
    refine ⟨[], ?_⟩
    rw [List.nil_append, scanFraction.eq_def]
    split
    · simp at point
    · rfl
  | @digits cs digits =>
    obtain ⟨d, ds, rfl⟩ := List.exists_cons_of_ne_nil digits.1
    refine ⟨d :: ds, ?_⟩
    rw [List.cons_append, scanFraction, takeWhile_digits digits.2 ends,
      dropWhile_digits digits.2 ends]

private theorem scanExponent_append {exponent rest : List Char} (h : IsExponent exponent)
    (ends : EndsDigits rest) (letter : ∀ c ∈ rest.head?, c ≠ 'e' ∧ c ≠ 'E') :
    ∃ n, scanExponent (exponent ++ rest) = .ok (n, rest) := by
  cases h with
  | none =>
    cases rest with
    | nil => exact ⟨0, rfl⟩
    | cons c rest =>
      obtain ⟨small, large⟩ := letter c rfl
      exact ⟨0, by simp [scanExponent, small, large]⟩
  | @digits e sign cs isLetter signed digits =>
    obtain ⟨d, ds, rfl⟩ := List.exists_cons_of_ne_nil digits.1
    have digit : isDigit d = true := digits.2 d (by simp)
    have taken := takeWhile_digits digits.2 ends
    have left := dropWhile_digits digits.2 ends
    rw [List.cons_append] at taken left
    -- Without a sign the first digit must not be taken for one.
    have plus : d ≠ '+' := by rintro rfl; simp [isDigit] at digit
    have minus : d ≠ '-' := by rintro rfl; simp [isDigit] at digit
    rcases signed with rfl | rfl | rfl <;>
      simp [scanExponent, isLetter, plus, minus, taken, left]

/-- What ends a value goes on with none of the parts of a number. -/
theorem EndsValue.not_number {rest : List Char} (ends : EndsValue rest) :
    EndsDigits rest ∧ rest.head? ≠ some '.' ∧ ∀ c ∈ rest.head?, c ≠ 'e' ∧ c ≠ 'E' := by
  cases rest with
  | nil => exact ⟨by simp [EndsDigits], by simp, by simp⟩
  | cons c rest =>
    have stop : isDigit c = false ∧ c ≠ '.' ∧ c ≠ 'e' ∧ c ≠ 'E' := by
      rcases ends c rfl with space | rfl | rfl | rfl
      · simp only [isSpace, Bool.or_eq_true, beq_iff_eq] at space
        rcases space with ((rfl | rfl) | rfl) | rfl <;> decide
      · decide
      · decide
      · decide
    simpa [EndsDigits] using stop

/-- A number is passed over in its three parts. -/
theorem skipNumber_append {whole fraction exponent rest : List Char} (isWhole : IsWhole whole)
    (isFraction : IsFraction fraction) (isExponent : IsExponent exponent) (ends : EndsValue rest) :
    skipNumber (whole ++ (fraction ++ (exponent ++ rest))) = .ok rest := by
  obtain ⟨endsRest, point, letter⟩ := ends.not_number
  -- An exponent begins with a letter and a fraction with a point, so that none of them is a digit.
  have endsExponent : EndsDigits (exponent ++ rest) ∧ (exponent ++ rest).head? ≠ some '.' := by
    cases isExponent with
    | none => exact ⟨endsRest, point⟩
    | digits isLetter _ _ =>
      rcases isLetter with rfl | rfl <;> exact ⟨by simp [EndsDigits, isDigit], by simp⟩
  have endsFraction : EndsDigits (fraction ++ (exponent ++ rest)) := by
    cases isFraction with
    | none => exact endsExponent.1
    | digits _ => simp [EndsDigits, isDigit]
  obtain ⟨digits, fraction_eq⟩ := scanFraction_append isFraction endsExponent.1 endsExponent.2
  obtain ⟨n, exponent_eq⟩ := scanExponent_append isExponent endsRest letter
  simp only [skipNumber, scanNumber, scanWhole_append isWhole endsFraction,
    fraction_eq, exponent_eq, bind, Except.bind]
  rfl

/-- A number begins with its sign or with a digit, and with neither of them anything else begins. -/
theorem IsNumber.exists_head {cs : List Char} (h : IsNumber cs) :
    ∃ c more, cs = c :: more ∧ (c = '-' ∨ isDigit c = true) := by
  obtain ⟨signed, isWhole, -, -⟩ := h
  rcases signed with rfl | rfl
  · cases isWhole with
    | zero => exact ⟨_, _, rfl, .inr (by decide)⟩
    | digits _ digits => exact ⟨_, _, rfl, .inr (digits.2 _ (by simp))⟩
  · exact ⟨_, _, rfl, .inl rfl⟩

private theorem ne_of_digit {c d : Char} (digit : isDigit c = true) (other : isDigit d = false) :
    c ≠ d := by
  rintro rfl
  simp [digit] at other

private theorem isSpace_of_digit {c : Char} (digit : isDigit c = true) : isSpace c = false := by
  simp [isSpace, ne_of_digit digit (d := ' ') rfl, ne_of_digit digit (d := '\t') rfl,
    ne_of_digit digit (d := '\n') rfl, ne_of_digit digit (d := '\r') rfl]

private theorem skipScalar_digit {c : Char} (digit : isDigit c = true) (cs : List Char) :
    skipScalar c cs = skipNumber (c :: cs) := by
  simp [skipScalar, digit, ne_of_digit digit (d := 'n') rfl, ne_of_digit digit (d := 't') rfl,
    ne_of_digit digit (d := 'f') rfl, ne_of_digit digit (d := '"') rfl,
    ne_of_digit digit (d := '-') rfl]

/-- A number is passed over if nothing follows that could belong to it. -/
theorem IsNumber.skipScalar {c : Char} {cs rest : List Char} (h : IsNumber (c :: cs))
    (ends : EndsValue rest) : Json.skipScalar c (cs ++ rest) = .ok rest := by
  generalize number : c :: cs = all at h
  obtain ⟨signed, isWhole, isFraction, isExponent⟩ := h
  rename_i sign whole fraction exponent
  have skipped := skipNumber_append isWhole isFraction isExponent ends
  rcases signed with rfl | rfl
  · -- Without a sign the first character is a digit of the number.
    have digit : isDigit c = true := by
      cases isWhole with
      | zero =>
        obtain rfl : c = '0' := (List.cons.inj number).1
        decide
      | digits _ digits =>
        obtain rfl := (List.cons.inj number).1
        exact digits.2 _ (by simp)
    rw [skipScalar_digit digit, ← List.cons_append, number]
    simpa using skipped
  · obtain ⟨rfl, rfl⟩ := List.cons.inj number
    simpa [Json.skipScalar] using skipped

/-! ## Values of all kinds -/

/-- A value begins neither with space nor with the end of something else. -/
theorem exists_head_of_isValue {cs : List Char} (h : IsValue cs) :
    ∃ c more, cs = c :: more ∧ isSpace c = false ∧ c ≠ ']' ∧ c ≠ '}' := by
  cases h with
  | null | true | false | text => exact ⟨_, _, rfl, by decide, by decide, by decide⟩
  | empty b => cases b <;> exact ⟨_, _, rfl, by decide, by decide, by decide⟩
  | @full b => cases b <;> exact ⟨_, _, rfl, by decide, by decide, by decide⟩
  | number isNumber =>
    obtain ⟨c, more, rfl, rfl | digit⟩ := isNumber.exists_head
    · exact ⟨_, _, rfl, by decide, by decide, by decide⟩
    · exact ⟨_, _, rfl, isSpace_of_digit digit, ne_of_digit digit rfl, ne_of_digit digit rfl⟩

private theorem skipFrom_spacing {space : List Char} (h : IsSpacing space) (fuel : Nat)
    (outer : List Bracket) (cs : List Char) :
    skipFrom (fuel + 1) .value outer (space ++ cs) = skipFrom (fuel + 1) .value outer cs := by
  rw [skipFrom, skipFrom, skipSpace_spacing h]

/-- In front of a value its label is passed over. -/
theorem skipFrom_label {b : Bracket} {label : List Char} (h : IsLabel b label) (fuel : Nat)
    (outer : List Bracket) (cs : List Char) :
    (do skipFrom (fuel + 1) .value outer (← b.skipName (label ++ cs))) =
      skipFrom (fuel + 1) .value outer cs := by
  cases h with
  | element isSpacing => exact skipFrom_spacing isSpacing fuel outer cs
  | member isSpacing isName isSpacing' isSpacing'' =>
    simp only [Bracket.skipName, List.append_assoc, List.cons_append]
    rw [expect_append (by decide) isSpacing]
    simp only [bind, Except.bind, skipQuoted_of_isQuotable isName]
    rw [expect_append (by decide) isSpacing']
    exact skipFrom_spacing isSpacing'' fuel outer cs

/-- The space in front of a label does not matter. -/
theorem skipFrom_skipSpace (b : Bracket) (fuel : Nat) (outer : List Bracket) (cs : List Char) :
    (do skipFrom (fuel + 1) .value outer (← b.skipName (skipSpace cs))) =
      (do skipFrom (fuel + 1) .value outer (← b.skipName cs)) := by
  cases b with
  | list =>
    change skipFrom (fuel + 1) .value outer (skipSpace cs) = skipFrom (fuel + 1) .value outer cs
    rw [skipFrom, skipFrom, skipSpace_idem]
  | object => simp only [Bracket.skipName, expect_skipSpace]

/-- Items begin with something else than the bracket that closes them. -/
theorem exists_head_of_items {b : Bracket} {items : List Char} (h : Derives (.items b) items)
    (rest : List Char) : ∃ c more, skipSpace (items ++ rest) = c :: more ∧ c ≠ b.closer := by
  have labelled {label cs : List Char} (isLabel : IsLabel b label) (value : IsValue cs)
      (more : List Char) :
      ∃ c more', skipSpace (label ++ (cs ++ more)) = c :: more' ∧ c ≠ b.closer := by
    obtain ⟨c, cs, rfl, nonspace, list, object⟩ := exists_head_of_isValue value
    cases isLabel with
    | element isSpacing =>
      rw [skipSpace_spacing isSpacing, List.cons_append, skipSpace_cons nonspace]
      exact ⟨_, _, rfl, list⟩
    | member isSpacing =>
      rw [List.append_assoc, List.append_assoc, List.append_assoc, skipSpace_spacing isSpacing,
        List.cons_append, skipSpace_cons (by decide)]
      exact ⟨_, _, rfl, by decide⟩
  cases h with
  | last isLabel value _ =>
    rw [List.append_assoc, List.append_assoc]
    exact labelled isLabel value _
  | more isLabel value _ _ =>
    rw [List.append_assoc, List.append_assoc, List.append_assoc]
    exact labelled isLabel value _

/-- After an opening bracket comes the first item. -/
theorem skipFrom_opened {b : Bracket} {items : List Char} (h : Derives (.items b) items)
    (fuel : Nat) (outer : List Bracket) (rest : List Char) :
    skipFrom (fuel + 2) (.opened b) outer (items ++ rest) =
      (do skipFrom (fuel + 1) .value (b :: outer) (← b.skipName (items ++ rest))) := by
  obtain ⟨c, more, head, open_⟩ := exists_head_of_items h rest
  rw [skipFrom, ← skipFrom_skipSpace, head]
  simp only [if_neg open_]

private theorem skipFrom_scalar {c : Char} {cs rest : List Char} (nonspace : isSpace c = false)
    (list : c ≠ '[') (object : c ≠ '{') (scalar : skipScalar c (cs ++ rest) = .ok rest) (fuel : Nat)
    (outer : List Bracket) :
    skipFrom (fuel + 1) .value outer (c :: cs ++ rest) = skipFrom fuel .ended outer rest := by
  rw [skipFrom, List.cons_append, skipSpace_cons nonspace]
  simp only [if_neg list, if_neg object, scalar]
  rfl

private theorem skipFrom_opener (b : Bracket) (fuel : Nat) (outer : List Bracket) (cs : List Char) :
    skipFrom (fuel + 1) .value outer (b.opener :: cs) = skipFrom fuel (.opened b) outer cs := by
  cases b <;> rfl

private theorem isSpace_closer (b : Bracket) : isSpace b.closer = false := by cases b <;> decide

private theorem skipFrom_closer (b : Bracket) {space : List Char} (h : IsSpacing space) (fuel : Nat)
    (outer : List Bracket) (rest : List Char) :
    skipFrom (fuel + 1) (.opened b) outer (space ++ b.closer :: rest) =
        skipFrom fuel .ended outer rest ∧
      skipFrom (fuel + 1) .ended (b :: outer) (space ++ b.closer :: rest) =
        skipFrom fuel .ended outer rest := by
  constructor
  · rw [skipFrom, skipSpace_spacing h, skipSpace_cons (isSpace_closer b)]
    exact if_pos rfl
  · rw [skipFrom, skipSpace_spacing h, skipSpace_cons (isSpace_closer b)]
    cases b <;> rfl

private theorem skipFrom_comma (b : Bracket) {space : List Char} (h : IsSpacing space) (fuel : Nat)
    (outer : List Bracket) (rest : List Char) :
    skipFrom (fuel + 1) .ended (b :: outer) (space ++ ',' :: rest) =
      (do skipFrom fuel .value (b :: outer) (← b.skipName rest)) := by
  rw [skipFrom, skipSpace_spacing h, skipSpace_cons (by decide)]
  exact if_pos rfl

/-- Space does not go on with a value. -/
theorem endsValue_append {space rest : List Char} (h : IsSpacing space) (ends : EndsValue rest) :
    EndsValue (space ++ rest) := by
  cases space with
  | nil => exact ends
  | cons c space =>
    intro d hd
    obtain rfl : c = d := by simpa using hd
    exact .inl (h c (by simp))

/-- A value ends in front of a closing bracket. -/
theorem endsValue_closer (b : Bracket) (rest : List Char) : EndsValue (b.closer :: rest) := by
  cases b <;> simp [EndsValue, Bracket.closer]

/-- It ends in front of a comma as well. -/
theorem endsValue_comma (rest : List Char) : EndsValue (',' :: rest) := by simp [EndsValue]

/-! ## All that the grammar derives -/

/-- What is derived from the symbol is passed over in at most twice as many steps as it has
characters. Items are passed over together with the bracket that closes them. -/
def Symbol.Skips : Symbol → List Char → Prop
  | .value, cs => ∃ n, n + 1 ≤ 2 * cs.length ∧ ∀ fuel outer rest, EndsValue rest →
      skipFrom (fuel + n + 1) .value outer (cs ++ rest) = skipFrom fuel .ended outer rest
  | .items b, cs => ∃ n, n ≤ 2 * cs.length ∧ ∀ fuel outer rest,
      (do skipFrom (fuel + n + 1) .value (b :: outer) (← b.skipName (cs ++ b.closer :: rest))) =
        skipFrom fuel .ended outer rest

/-- What the grammar derives is passed over. -/
theorem skips_of_derives {symbol : Symbol} {cs : List Char} (h : Derives symbol cs) :
    symbol.Skips cs := by
  induction h with
  | null => exact ⟨0, by simp, fun fuel outer rest _ => rfl⟩
  | true => exact ⟨0, by simp, fun fuel outer rest _ => rfl⟩
  | false => exact ⟨0, by simp, fun fuel outer rest _ => rfl⟩
  | number isNumber =>
    obtain ⟨c, cs, rfl, first⟩ := isNumber.exists_head
    refine ⟨0, ?_, fun fuel outer rest ends => ?_⟩
    · rw [List.length_cons]
      omega
    · have scalar := isNumber.skipScalar ends
      rcases first with rfl | digit
      · exact skipFrom_scalar (by decide) (by decide) (by decide) scalar fuel outer
      · exact skipFrom_scalar (isSpace_of_digit digit) (ne_of_digit digit rfl)
          (ne_of_digit digit rfl)
          scalar fuel outer
  | text isQuotable =>
    refine ⟨0, ?_, fun fuel outer rest _ => ?_⟩
    · simp only [List.length_cons, List.length_append]
      omega
    · refine skipFrom_scalar (by decide) (by decide) (by decide) ?_ fuel outer
      have skipped := skipQuoted_of_isQuotable isQuotable rest
      simpa [skipScalar] using skipped
  | empty b isSpacing =>
    refine ⟨1, ?_, fun fuel outer rest _ => ?_⟩
    · simp only [List.length_cons, List.length_append]
      omega
    · rw [List.cons_append, List.cons_append, skipFrom_opener, List.append_assoc]
      exact (skipFrom_closer b isSpacing fuel outer rest).1
  | @full b items derives ih =>
    -- Two more steps: one takes the opening bracket, the other looks whether it is closed at once.
    obtain ⟨n, few, skipped⟩ := ih
    refine ⟨n + 2, ?_, fun fuel outer rest _ => ?_⟩
    · simp only [List.length_cons, List.length_append]
      omega
    · rw [List.cons_append, List.cons_append, skipFrom_opener, List.append_assoc]
      exact (skipFrom_opened derives (fuel + n) outer _).trans (skipped fuel outer rest)
  | @last b label cs space isLabel _ isSpacing ih =>
    obtain ⟨n, few, skipped⟩ := ih
    refine ⟨n + 1, ?_, fun fuel outer rest => ?_⟩
    · simp only [List.length_append]
      omega
    · have ends := endsValue_append isSpacing (endsValue_closer b rest)
      have fuel_eq : fuel + (n + 1) + 1 = (fuel + 1) + n + 1 := by omega
      rw [List.append_assoc, List.append_assoc, skipFrom_label isLabel, fuel_eq,
        skipped (fuel + 1) (b :: outer) _ ends]
      exact (skipFrom_closer b isSpacing fuel outer rest).2
  | @more b label cs space others isLabel _ isSpacing _ ih ih' =>
    -- The fuel that is left after the value pays for the comma and for the other items.
    obtain ⟨n, few, skipped⟩ := ih
    obtain ⟨n', few', skipped'⟩ := ih'
    refine ⟨n + n' + 2, ?_, fun fuel outer rest => ?_⟩
    · simp only [List.length_cons, List.length_append]
      omega
    · have ends := endsValue_append isSpacing (endsValue_comma (others ++ b.closer :: rest))
      have fuel_eq : fuel + (n + n' + 2) + 1 = (fuel + n' + 1 + 1) + n + 1 := by omega
      rw [List.append_assoc, List.append_assoc, List.append_assoc, skipFrom_label isLabel, fuel_eq,
        List.cons_append, skipped _ (b :: outer) _ ends, skipFrom_comma b isSpacing]
      exact skipped' fuel outer rest

/-- A value is passed over, and the space in front of it. -/
theorem skipValue_append {space cs rest : List Char} (isSpacing : IsSpacing space)
    (isValue : IsValue cs) (ends : EndsValue rest) :
    skipValue (space ++ (cs ++ rest)) = .ok rest := by
  obtain ⟨n, few, skipped⟩ := skips_of_derives isValue
  obtain ⟨fuel, fuel_eq⟩ : ∃ fuel, 2 * (space ++ (cs ++ rest)).length + 2 = (fuel + 1) + n + 1 := by
    refine ⟨2 * (space ++ (cs ++ rest)).length - n, ?_⟩
    simp only [List.length_append]
    omega
  rw [skipValue, fuel_eq, skipFrom_spacing isSpacing, skipped _ _ _ ends]
  rfl

end ChatClient.Json
