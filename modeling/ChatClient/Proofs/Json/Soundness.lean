import ChatClient.Proofs.Json.Skipping
import Mathlib.Data.List.TakeWhile
import Mathlib.Tactic.Common

/-!
# Nothing else is read

What is read from the front of a text, and what is passed over there, is one of the things that the
grammar allows. A text between quotes is one of the spellings of what has been read, and a value
that was passed over is a value. So a text is refused wherever the grammar has no place for it.

A value that is passed over may be nested, and its brackets are kept in a list. The induction is on
the fuel. It says of a value that the run goes on behind it, and of an open bracket that the run
goes on behind the bracket that closes it.

## Main definitions

* `EndsItems`: what may stand between an item and the end of the brackets around it

## Main results

* `spells_of_readQuoted`, `isQuotable_of_skipQuoted`: texts
* `isNumber_of_skipNumber`: numbers
* `isValue_of_skipValue`: values
-/

namespace ChatClient.Json

open Text (isDigit hexDigit?)

/-! ## Steps -/

/-- What is done in two steps succeeds only if both do. -/
theorem exists_of_bind {α β : Type} {first : Except Problem α} {next : α → Except Problem β} {b : β}
    (h : (first >>= next) = .ok b) : ∃ a, first = .ok a ∧ next a = .ok b := by
  cases first with
  | error problem => cases h
  | ok a => exact ⟨a, rfl, h⟩

/-! ## Space and words -/

/-- In front of what is left there is nothing but space. -/
theorem exists_of_skipSpace {cs rest : List Char} (h : skipSpace cs = rest) :
    ∃ space, IsSpacing space ∧ cs = space ++ rest := by
  refine ⟨cs.takeWhile isSpace, fun c mem => List.mem_takeWhile_imp mem, ?_⟩
  rw [← h, skipSpace, List.takeWhile_append_dropWhile]

/-- A character that is found has nothing but space in front of it. -/
theorem exists_of_expect {c : Char} {cs rest : List Char} (h : expect c cs = .ok rest) :
    ∃ space, IsSpacing space ∧ cs = space ++ c :: rest := by
  rw [expect] at h
  split at h
  · cases h
  · next skipped =>
    split at h
    · next same =>
      cases h
      cases same
      exact exists_of_skipSpace skipped
    · cases h

/-- A word that is read stands there letter by letter. -/
theorem eq_of_literal {word cs rest : List Char} (h : literal word cs = .ok rest) :
    cs = word ++ rest := by
  induction word generalizing cs with
  | nil => exact Except.ok.inj h
  | cons w word ih =>
    cases cs with
    | nil => cases h
    | cons c cs =>
      rw [literal] at h
      split at h
      · next same => rw [same, ih h, List.cons_append]
      · cases h

/-! ## Texts -/

private theorem mem_shortEscapes_of_unescape? {letter c : Char} (h : unescape? letter = some c) :
    (letter, c) ∈ shortEscapes := by
  unfold unescape? at h
  repeat' split at h
  all_goals cases h <;> simp_all [shortEscapes]

private theorem hexDigit?_lt {c : Char} {n : Nat} (h : hexDigit? c = some n) : n < 16 := by
  have zero : '0'.toNat = 48 := rfl
  have nine : '9'.toNat = 57 := rfl
  have small : 'a'.toNat = 97 ∧ 'f'.toNat = 102 := ⟨rfl, rfl⟩
  have capital : 'A'.toNat = 65 ∧ 'F'.toNat = 70 := ⟨rfl, rfl⟩
  simp only [hexDigit?, Char.le_def, UInt32.le_iff_toNat_le, Char.toNat_val] at h
  split at h
  · cases h; omega
  · split at h
    · cases h; omega
    · split at h
      · cases h; omega
      · cases h

private theorem hexUnit?_lt {a b c d : Char} {n : Nat} (h : hexUnit? a b c d = some n) :
    n < 0x10000 := by
  simp only [hexUnit?, Option.pure_def, Option.bind_eq_bind, Option.bind_eq_some_iff,
    Option.some.injEq] at h
  obtain ⟨w, first, x, second, y, third, z, fourth, rfl⟩ := h
  have := hexDigit?_lt first
  have := hexDigit?_lt second
  have := hexDigit?_lt third
  have := hexDigit?_lt fourth
  omega

private theorem toNat_ofNat {n : Nat} (valid : n.isValidChar) : (Char.ofNat n).toNat = n := by
  rw [Char.ofNat, dif_pos valid]
  rfl

/-- A short number that is no half of a character is the number of one. -/
theorem toNat_ofNat_of_not_half {n : Nat} (short : n < 0x10000) (notTrail : ¬ isTrail n = true)
    (notLead : ¬ isLead n = true) : (Char.ofNat n).toNat = n := by
  simp only [isTrail, isLead, Bool.and_eq_true, decide_eq_true_eq] at notTrail notLead
  apply toNat_ofNat
  rw [Nat.isValidChar]
  omega

private theorem toNat_joinHalves {lead trail : Nat} (isLead : 0xD800 ≤ lead ∧ lead ≤ 0xDBFF)
    (isTrail : 0xDC00 ≤ trail ∧ trail ≤ 0xDFFF) :
    (joinHalves lead trail).toNat = 0x10000 + (lead - 0xD800) * 0x400 + (trail - 0xDC00) := by
  apply toNat_ofNat
  rw [Nat.isValidChar]
  omega

/-- The text goes on with a spelling of what `s` has beyond the characters in `acc`, and then with a
quote and the rest. -/
def GoesOn (acc s cs rest : List Char) : Prop :=
  ∃ more body, Spells more body ∧ s = acc.reverse ++ more ∧ cs = body ++ '"' :: rest

/-- One more character is spelled, and then the text goes on. -/
theorem GoesOn.cons {c : Char} {acc s part cs rest : List Char} (spells : SpellsChar c part)
    (later : GoesOn (c :: acc) s cs rest) : GoesOn acc s (part ++ cs) rest := by
  obtain ⟨more, body, spellsMore, rfl, rfl⟩ := later
  exact ⟨c :: more, part ++ body, .cons spells spellsMore, by simp, by simp⟩

/-- What is read up to the closing quote is spelled there. -/
theorem goesOn_of_readQuoted {acc cs s rest : List Char} (h : readQuoted acc cs = .ok (s, rest)) :
    GoesOn acc s cs rest := by
  fun_induction readQuoted acc cs with
  | case2 acc cs =>
    cases h
    exact ⟨[], [], .nil, by simp, rfl⟩
  | case9 acc h₁ h₂ h₃ h₄ lead first notTrail lead_mem h₅ h₆ h₇ h₈ cs trail second trail_mem _ ih =>
    simp only [isTrail, isLead, Bool.and_eq_true, decide_eq_true_eq] at lead_mem trail_mem
    have number := toNat_joinHalves lead_mem trail_mem
    have spells := SpellsChar.halves first second lead_mem trail_mem number
    exact .cons spells (ih h)
  | case14 acc h₁ h₂ h₃ h₄ cs n number notTrail notLead _ ih =>
    have numbered := toNat_ofNat_of_not_half (hexUnit?_lt number) notTrail notLead
    rw [← numbered] at number
    exact .cons (.unit number) (ih h)
  | case17 acc letter cs _ c escape _ ih =>
    exact .cons (.short (mem_shortEscapes_of_unescape? escape)) (ih h)
  | case19 acc c cs quote backslash printable ih =>
    exact .cons (.plain (Nat.not_lt.mp printable) quote backslash) (ih h)
  | _ => cases h

/-- A text that is read is spelled by what stands in front of the closing quote. -/
theorem spells_of_readQuoted {cs s rest : List Char} (h : readQuoted [] cs = .ok (s, rest)) :
    ∃ body, Spells s body ∧ cs = body ++ '"' :: rest := by
  obtain ⟨_, body, spells, rfl, rfl⟩ := goesOn_of_readQuoted h
  exact ⟨body, spells, rfl⟩

/-- What is passed over up to the closing quote may stand there. -/
theorem isQuotable_of_skipQuoted {cs rest : List Char} (h : skipQuoted cs = .ok rest) :
    ∃ body, IsQuotable body ∧ cs = body ++ '"' :: rest := by
  fun_induction skipQuoted cs with
  | case2 cs =>
    cases h
    exact ⟨[], .nil, rfl⟩
  | case5 h₁ h₂ h₃ h₄ cs n number _ ih =>
    obtain ⟨body, quotable, rfl⟩ := ih h
    exact ⟨_, .unit number quotable, rfl⟩
  | case8 letter cs _ c escape _ ih =>
    obtain ⟨body, quotable, rfl⟩ := ih h
    exact ⟨_, .short (mem_shortEscapes_of_unescape? escape) quotable, rfl⟩
  | case10 c cs quote backslash printable ih =>
    obtain ⟨body, quotable, rfl⟩ := ih h
    exact ⟨_, .plain (Nat.not_lt.mp printable) quote backslash quotable, rfl⟩
  | _ => cases h

/-! ## Numbers -/

/-- The digits at the front of a text and what follows them. -/
theorem exists_digits (cs : List Char) :
    ∃ taken left, cs.takeWhile isDigit = taken ∧ cs.dropWhile isDigit = left ∧ cs = taken ++ left ∧
      (taken ≠ [] → IsDigits taken) :=
  ⟨_, _, rfl, rfl, List.takeWhile_append_dropWhile.symm, fun some_ =>
    ⟨some_, fun _ mem => List.mem_takeWhile_imp mem⟩⟩

private theorem isWhole_of_scanWhole {cs whole rest : List Char}
    (h : scanWhole cs = .ok (whole, rest)) :
    IsWhole whole ∧ cs = whole ++ rest := by
  cases cs with
  | nil => cases h
  | cons c cs =>
    rw [scanWhole] at h
    split at h
    · next zero =>
      split at h
      · cases h
      · cases h
        exact ⟨.zero, by rw [zero]; rfl⟩
    -- No number begins with a zero that another digit follows.
    · next nonzero =>
      split at h
      · next digit =>
        cases h
        refine ⟨.digits nonzero ⟨List.cons_ne_nil _ _, ?_⟩, ?_⟩
        · intro d mem
          rcases List.mem_cons.mp mem with rfl | mem
          · exact digit
          · exact List.mem_takeWhile_imp mem
        · rw [List.cons_append, List.takeWhile_append_dropWhile]
      · cases h

private theorem isFraction_of_scanFraction {cs digits rest : List Char}
    (h : scanFraction cs = .ok (digits, rest)) :
    ∃ fraction, IsFraction fraction ∧ cs = fraction ++ rest := by
  unfold scanFraction at h
  split at h
  · next cs =>
    obtain ⟨taken, left, taken_eq, left_eq, rfl, digits⟩ := exists_digits cs
    rw [taken_eq, left_eq] at h
    split at h
    · cases h
    · cases h
    · next some_ _ =>
      cases h
      exact ⟨'.' :: _, .digits (digits some_), rfl⟩
  · cases h
    exact ⟨[], .none, rfl⟩

private theorem isExponent_of_scanExponent {cs rest : List Char} {n : Int}
    (h : scanExponent cs = .ok (n, rest)) :
    ∃ exponent, IsExponent exponent ∧ cs = exponent ++ rest := by
  unfold scanExponent at h
  split at h
  · cases h
    exact ⟨[], .none, rfl⟩
  · next e cs =>
    split at h
    · next letter =>
      split at h
      next negative after pair =>
      -- Whether there is a sign or not, what follows it are digits.
      obtain ⟨sign, signed, rfl⟩ :
          ∃ sign, (sign = [] ∨ sign = ['+'] ∨ sign = ['-']) ∧ cs = sign ++ after := by
        split at pair
        all_goals cases pair
        · exact ⟨['+'], .inr (.inl rfl), rfl⟩
        · exact ⟨['-'], .inr (.inr rfl), rfl⟩
        · exact ⟨[], .inl rfl, rfl⟩
      obtain ⟨taken, left, taken_eq, left_eq, rfl, digits⟩ := exists_digits after
      simp only [taken_eq, left_eq] at h
      split at h
      · cases h
      · cases h
      · next some_ _ =>
        cases h
        exact ⟨e :: sign ++ _, .digits letter signed (digits some_), by simp⟩
    · cases h
      exact ⟨[], .none, rfl⟩

/-- What is passed over as a number without its sign is one. -/
theorem isNumber_of_skipNumber {sign cs rest : List Char} (signed : sign = [] ∨ sign = ['-'])
    (h : skipNumber cs = .ok rest) :
    ∃ number, IsNumber (sign ++ number) ∧ cs = number ++ rest := by
  rw [skipNumber] at h
  split at h
  · next x rest' scanned =>
    cases h
    obtain ⟨⟨whole, afterWhole⟩, whole_eq, scanned⟩ := exists_of_bind scanned
    obtain ⟨⟨fraction, afterFraction⟩, fraction_eq, scanned⟩ := exists_of_bind scanned
    obtain ⟨⟨exponent, after⟩, exponent_eq, scanned⟩ := exists_of_bind scanned
    cases scanned
    obtain ⟨isWhole, rfl⟩ := isWhole_of_scanWhole whole_eq
    obtain ⟨_, isFraction, rfl⟩ := isFraction_of_scanFraction fraction_eq
    obtain ⟨_, isExponent, rfl⟩ := isExponent_of_scanExponent exponent_eq
    have isNumber := IsNumber.mk signed isWhole isFraction isExponent
    exact ⟨_, by simpa only [List.append_assoc] using isNumber, by simp⟩
  · cases h

/-! ## Values -/

private theorem isValue_of_skipScalar {c : Char} {cs rest : List Char}
    (h : skipScalar c cs = .ok rest) :
    ∃ more, IsValue (c :: more) ∧ cs = more ++ rest := by
  rw [skipScalar] at h
  split at h
  · next null => exact ⟨_, null ▸ .null, eq_of_literal h⟩
  split at h
  · next true_ => exact ⟨_, true_ ▸ .true, eq_of_literal h⟩
  split at h
  · next false_ => exact ⟨_, false_ ▸ .false, eq_of_literal h⟩
  split at h
  · next quote =>
    obtain ⟨body, quotable, rfl⟩ := isQuotable_of_skipQuoted h
    exact ⟨body ++ ['"'], quote ▸ .text quotable, by simp⟩
  split at h
  · next minus =>
    obtain ⟨number, isNumber, rfl⟩ := isNumber_of_skipNumber (.inr rfl) h
    exact ⟨number, minus ▸ .number isNumber, rfl⟩
  split at h
  -- The first digit was taken already. It is part of the number.
  · next digit =>
    obtain ⟨number, isNumber, eq⟩ := isNumber_of_skipNumber (.inl rfl) h
    cases number with
    | nil =>
      obtain ⟨_, _, impossible, -⟩ := isNumber.exists_head
      cases impossible
    | cons d more =>
      obtain ⟨rfl, rfl⟩ := List.cons.inj eq
      exact ⟨more, .number isNumber, rfl⟩
  · cases h

/-- What may stand between an item and the end of the brackets around it. -/
inductive EndsItems (b : Bracket) : List Char → Prop
  | close {space : List Char} (isSpacing : IsSpacing space) : EndsItems b (space ++ [b.closer])
  | more {space items : List Char} (isSpacing : IsSpacing space)
      (derives : Derives (.items b) items) :
      EndsItems b (space ++ ',' :: items ++ [b.closer])

/-- An item and what ends it are the items up to the closing bracket. -/
theorem EndsItems.exists_items {b : Bracket} {label value tail : List Char}
    (ends : EndsItems b tail) (isLabel : IsLabel b label) (isValue : IsValue value) :
    ∃ items, Derives (.items b) items ∧ label ++ (value ++ tail) = items ++ [b.closer] := by
  cases ends with
  | close isSpacing => exact ⟨_, .last isLabel isValue isSpacing, by simp⟩
  | more isSpacing derives => exact ⟨_, .more isLabel isValue isSpacing derives, by simp⟩

/-- Space after space is space. -/
theorem IsSpacing.append {space space' : List Char} (h : IsSpacing space) (h' : IsSpacing space') :
    IsSpacing (space ++ space') :=
  List.forall_mem_append.mpr ⟨h, h'⟩

/-- There may be more space in front of a label. -/
theorem IsLabel.spacing {b : Bracket} {label space : List Char} (h : IsLabel b label)
    (isSpacing : IsSpacing space) : IsLabel b (space ++ label) := by
  cases h with
  | element isSpacing' => exact .element (isSpacing.append isSpacing')
  | member isSpacing' isName afterName beforeValue =>
    have isLabel := IsLabel.member (isSpacing.append isSpacing') isName afterName beforeValue
    simpa using isLabel

/-- There may be more space in front of items. -/
theorem Derives.spacing {b : Bracket} {items space : List Char} (h : Derives (.items b) items)
    (isSpacing : IsSpacing space) : Derives (.items b) (space ++ items) := by
  cases h with
  | last isLabel value after =>
    have derives := Derives.last (isLabel.spacing isSpacing) value after
    simpa using derives
  | more isLabel value after items =>
    have derives := Derives.more (isLabel.spacing isSpacing) value after items
    simpa using derives

private theorem exists_label_of_skipName {b : Bracket} {cs space rest : List Char}
    (h : b.skipName cs = .ok (space ++ rest)) (isSpacing : IsSpacing space) :
    ∃ label, IsLabel b label ∧ cs = label ++ rest := by
  cases b with
  | list =>
    cases h
    exact ⟨space, .element isSpacing, rfl⟩
  | object =>
    obtain ⟨afterQuote, opened, h⟩ := exists_of_bind h
    obtain ⟨afterName, named, colon⟩ := exists_of_bind h
    obtain ⟨before, beforeSpacing, rfl⟩ := exists_of_expect opened
    obtain ⟨name, quotable, rfl⟩ := isQuotable_of_skipQuoted named
    obtain ⟨between, betweenSpacing, rfl⟩ := exists_of_expect colon
    exact ⟨_, .member beforeSpacing quotable betweenSpacing isSpacing, by simp⟩

/-- What a run with this fuel can pass over. From the start of a value it comes to the end of it.
From the end of an item it comes to the end of the brackets around it. -/
structure Passes (fuel : Nat) : Prop where
  value : ∀ {outer cs rest}, skipFrom fuel .value outer cs = .ok rest →
    ∃ space value more fuel', fuel' < fuel ∧ IsSpacing space ∧ IsValue value ∧
      cs = space ++ (value ++ more) ∧ skipFrom fuel' .ended outer more = .ok rest
  ended : ∀ {b outer cs rest}, skipFrom fuel .ended (b :: outer) cs = .ok rest →
    ∃ tail more fuel', fuel' < fuel ∧ EndsItems b tail ∧ cs = tail ++ more ∧
      skipFrom fuel' .ended outer more = .ok rest

section Passes

variable {fuel : Nat} (passes : ∀ fuel' ≤ fuel, Passes fuel') {b : Bracket} {outer : List Bracket}
  {cs rest : List Char}
include passes

/-- From the label of an item the run comes to the closing bracket. -/
theorem passes_items (h : (do skipFrom fuel .value (b :: outer) (← b.skipName cs)) = .ok rest) :
    ∃ items more fuel', fuel' < fuel ∧ Derives (.items b) items ∧ cs = items ++ [b.closer] ++ more ∧
      skipFrom fuel' .ended outer more = .ok rest := by
  obtain ⟨afterName, named, h⟩ := exists_of_bind h
  obtain ⟨space, value, after, fuel₁, less₁, isSpacing, isValue, rfl, later⟩ :=
    (passes fuel le_rfl).value h
  obtain ⟨tail, more, fuel₂, less₂, ends, rfl, final⟩ := (passes fuel₁ less₁.le).ended later
  obtain ⟨label, isLabel, rfl⟩ := exists_label_of_skipName named isSpacing
  obtain ⟨items, derives, eq⟩ := ends.exists_items isLabel isValue
  refine ⟨items, more, fuel₂, less₂.trans less₁, derives, ?_, final⟩
  rw [← eq]
  simp

/-- From an open bracket the run comes to the end of what it opens. -/
theorem passes_opened (h : skipFrom fuel (.opened b) outer cs = .ok rest) :
    ∃ value more fuel', fuel' < fuel ∧ IsValue value ∧ b.opener :: cs = value ++ more ∧
      skipFrom fuel' .ended outer more = .ok rest := by
  cases fuel with
  | zero => cases h
  | succ fuel =>
    rw [skipFrom] at h
    split at h
    · cases h
    · next c cs' skipped =>
      obtain ⟨space, isSpacing, rfl⟩ := exists_of_skipSpace skipped
      split at h
      · next close =>
        refine ⟨_, cs', fuel, Nat.lt_succ_self fuel, .empty b isSpacing, ?_, h⟩
        simp [close]
      · obtain ⟨items, more, fuel', less, derives, eq, later⟩ :=
          passes_items (fun fuel' le => passes fuel' (Nat.le_succ_of_le le)) h
        refine ⟨_, more, fuel', Nat.lt_succ_of_lt less,
          .full (derives.spacing isSpacing), ?_, later⟩
        simp [eq]

end Passes

/-- What is passed over is a value, however much fuel there was. -/
theorem passes (fuel : Nat) : Passes fuel := by
  induction fuel using Nat.strongRecOn with
  | ind fuel ih =>
    cases fuel with
    | zero =>
      constructor
      · intro outer cs rest h
        cases h
      · intro b outer cs rest h
        cases h
    | succ fuel =>
      have below : ∀ fuel' ≤ fuel, Passes fuel' := fun fuel' le => ih fuel' (Nat.lt_succ_of_le le)
      constructor
      case value =>
        intro outer cs rest h
        rw [skipFrom] at h
        split at h
        · cases h
        · next c cs' skipped =>
          obtain ⟨space, isSpacing, rfl⟩ := exists_of_skipSpace skipped
          -- A bracket is opened, or the value holds no others.
          have opened (b : Bracket) (opener : c = b.opener)
              (h : skipFrom fuel (.opened b) outer cs' = .ok rest) :
              ∃ value more fuel', fuel' < fuel + 1 ∧ IsValue value ∧ c :: cs' = value ++ more ∧
                skipFrom fuel' .ended outer more = .ok rest := by
            obtain ⟨value, more, fuel', less, isValue, eq, later⟩ := passes_opened below h
            exact ⟨value, more, fuel', Nat.lt_succ_of_lt less, isValue, opener ▸ eq, later⟩
          obtain ⟨value, more, fuel', less, isValue, eq, later⟩ :
              ∃ value more fuel', fuel' < fuel + 1 ∧ IsValue value ∧ c :: cs' = value ++ more ∧
                skipFrom fuel' .ended outer more = .ok rest := by
            split at h
            · next list => exact opened .list list h
            split at h
            · next object => exact opened .object object h
            · obtain ⟨after, scalar, later⟩ := exists_of_bind h
              obtain ⟨body, isValue, rfl⟩ := isValue_of_skipScalar scalar
              exact ⟨c :: body, after, fuel, Nat.lt_succ_self fuel, isValue, rfl, later⟩
          exact ⟨space, value, more, fuel', less, isSpacing, isValue, by rw [eq], later⟩
      case ended =>
        intro b outer cs rest h
        rw [skipFrom] at h
        split at h
        · cases h
        · next c cs' skipped =>
          obtain ⟨space, isSpacing, rfl⟩ := exists_of_skipSpace skipped
          split at h
          · next comma =>
            obtain ⟨items, more, fuel', less, derives, eq, later⟩ := passes_items below h
            refine ⟨_, more, fuel', Nat.lt_succ_of_lt less, .more isSpacing derives, ?_, later⟩
            simp [comma, eq]
          split at h
          · next close =>
            refine ⟨_, cs', fuel, Nat.lt_succ_self fuel, .close isSpacing, ?_, h⟩
            simp [close]
          · cases h

/-- What is passed over is a value, with space in front of it. -/
theorem isValue_of_skipValue {cs rest : List Char} (h : skipValue cs = .ok rest) :
    ∃ space value, IsSpacing space ∧ IsValue value ∧ cs = space ++ (value ++ rest) := by
  obtain ⟨space, value, more, fuel, -, isSpacing, isValue, rfl, ended⟩ := (passes _).value h
  -- No bracket is left to be closed, so that the run ends where the value does.
  have same : more = rest := by
    cases fuel with
    | zero => cases ended
    | succ fuel =>
      rw [skipFrom] at ended
      exact Except.ok.inj ended
  exact ⟨space, value, isSpacing, isValue, by rw [same]⟩

end ChatClient.Json
