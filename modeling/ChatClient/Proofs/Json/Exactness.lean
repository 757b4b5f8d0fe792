import ChatClient.Proofs.Json.Reading
import ChatClient.Proofs.Json.Soundness
import Mathlib.Data.List.Forall2

/-!
# What a reader takes for a value

A reader is *exact* if the texts that it takes for a value are those that mean the value, no fewer
and no others. Readers that are put together of exact ones are exact: those of texts that have to
pass a test, of values that may be missing, and of lists.

## Main definitions

* `Exact`: a reader takes just the texts that mean a value
* `IsNullable`, `IsList`: the ways to write a value that may be missing, and a list
* `Enclosed`: parts up to the bracket that closes them

## Main results

* `exact_text`, `exact_textAs`, `exact_map`, `exact_nullable`, `exact_list`
* `document_eq_ok_iff`: a text that holds one value
-/

namespace ChatClient.Json

/-- The reader takes from the front of a text, together with the space before it, what means a
value, and nothing else. -/
structure Exact {α : Type} (read : Reader α) (Means : α → List Char → Prop) : Prop where
  complete : ∀ {a text space}, Means a text → IsSpacing space → ∀ rest,
    read (space ++ (text ++ rest)) = .ok (a, rest)
  sound : ∀ {cs a rest}, read cs = .ok (a, rest) →
    ∃ space text, IsSpacing space ∧ Means a text ∧ cs = space ++ (text ++ rest)
  isValue : ∀ {a text}, Means a text → IsValue text

/-- What a reader accepts can be said in other words. -/
theorem Exact.congr {α : Type} {read : Reader α} {Means Means' : α → List Char → Prop}
    (exact : Exact read Means) (same : ∀ a text, Means' a text ↔ Means a text) :
    Exact read Means' := by
  obtain rfl : Means' = Means := by
    funext a text
    exact propext (same a text)
  exact exact

/-! ## Texts and values that may be missing -/

/-- A text is read from its spellings, and from nothing else. -/
theorem exact_text : Exact text IsText where
  complete isText isSpacing rest := text_of_isText isText isSpacing rest
  sound h := by
    rw [text] at h
    split at h
    · next cs quoted =>
      obtain ⟨⟨body, rest⟩, read, done⟩ := exists_of_bind h
      cases done
      obtain ⟨space, isSpacing, rfl⟩ := exists_of_skipSpace quoted
      obtain ⟨spelling, spells, rfl⟩ := spells_of_readQuoted read
      refine ⟨space, '"' :: spelling ++ ['"'], isSpacing, .quoted ?_, by simp⟩
      rw [String.toList_ofList]
      exact spells
    · cases h
  isValue isText := isText.isValue

/-- A text that has to pass a test is read from the spellings of the one text for each value. -/
theorem exact_textAs {α : Type} {ofText? : String → Option α} {toText : α → String}
    (inverse : ∀ s a, ofText? s = some a ↔ toText a = s) :
    Exact (textAs ofText?) fun a => IsText (toText a) where
  complete := by
    intro a text space isText isSpacing rest
    have passed := (inverse (toText a) a).mpr rfl
    rw [textAs, exact_text.complete isText isSpacing]
    simp only [bind, Except.bind, passed]
    rfl
  sound h := by
    obtain ⟨⟨s, rest⟩, read, h⟩ := exists_of_bind h
    dsimp only at h
    split at h
    · next a passed =>
      cases h
      obtain ⟨space, text, isSpacing, isText, rfl⟩ := exact_text.sound read
      rw [← (inverse _ _).mp passed] at isText
      exact ⟨space, text, isSpacing, isText, rfl⟩
    · cases h
  isValue isText := isText.isValue

/-- What is made of a value is read from the texts that mean the value. -/
theorem exact_map {α β : Type} {read : Reader α} {Means : α → List Char → Prop}
    (exact : Exact read Means) (f : α → β) :
    Exact (fun cs => do
      let (a, cs) ← read cs
      return (f a, cs)) fun b text => ∃ a, Means a text ∧ b = f a where
  complete := by
    rintro _ text space ⟨a, means, rfl⟩ isSpacing rest
    rw [exact.complete means isSpacing]
    rfl
  sound h := by
    obtain ⟨⟨a, _⟩, reads, done⟩ := exists_of_bind h
    cases done
    obtain ⟨space, text, isSpacing, means, rfl⟩ := exact.sound reads
    exact ⟨space, text, isSpacing, ⟨a, means, rfl⟩, rfl⟩
  isValue := by
    rintro _ text ⟨a, means, -⟩
    exact exact.isValue means

section Readers

variable {α : Type} {read : Reader α} {Means : α → List Char → Prop} (exact : Exact read Means)

/-- The ways to write a value that may be missing. -/
inductive IsNullable (Means : α → List Char → Prop) : Option α → List Char → Prop
  | some {a : α} {text : List Char} (means : Means a text) : IsNullable Means (some a) text
  | null : IsNullable Means none ['n', 'u', 'l', 'l']

include exact

/-- A value that may be missing is told from `null` by its first character. -/
theorem exact_nullable (other : ∀ a text, Means a text → text.head? ≠ some 'n') :
    Exact (nullable read) (IsNullable Means) where
  complete := by
    intro o text space means isSpacing rest
    cases means with
    | null => exact nullable_spacing read isSpacing rest
    | @some a text means =>
      -- No value that is there begins like null.
      obtain ⟨c, cs, rfl, nonspace, -, -⟩ := exists_head_of_isValue (exact.isValue means)
      have null : c ≠ 'n' := by
        rintro rfl
        exact other a _ means rfl
      rw [nullable, skipSpace_spacing isSpacing]
      exact nullable_cons nonspace null (exact.complete means isSpacing_nil rest)
  sound := by
    intro cs o rest h
    rw [nullable] at h
    split at h
    · next after null =>
      obtain ⟨_, literal, done⟩ := exists_of_bind h
      cases done
      obtain ⟨space, isSpacing, rfl⟩ := exists_of_skipSpace null
      exact ⟨space, _, isSpacing, .null, by rw [eq_of_literal literal]; rfl⟩
    · obtain ⟨⟨a, _⟩, reads, done⟩ := exists_of_bind h
      cases done
      obtain ⟨space, isSpacing, skipped⟩ := exists_of_skipSpace (rfl : skipSpace cs = _)
      obtain ⟨space', text, isSpacing', means, rest_eq⟩ := exact.sound reads
      refine ⟨space ++ space', text, isSpacing.append isSpacing', .some means, ?_⟩
      rw [skipped, rest_eq, List.append_assoc]
  isValue means := by
    cases means with
    | null => exact .null
    | some means => exact exact.isValue means

end Readers

/-! ## Parts between brackets -/

/-- Parts up to the bracket that closes them, and the rest behind it. In front of them stands what
separates them from the part before, if there was one. -/
inductive Enclosed {α : Type} (IsPart : α → List Char → Prop) (closer : Char) (first : Bool) :
    List α → List Char → List Char → Prop
  | nothing {space rest : List Char} (isSpacing : IsSpacing space) :
      Enclosed IsPart closer first [] (space ++ closer :: rest) rest
  | parts {before text rest : List Char} {parts : List α} (precedes : Record.Precedes first before)
      (separated : Separated IsPart parts text) :
      Enclosed IsPart closer first parts (before ++ (text ++ closer :: rest)) rest

/-- One more part in front of others. The space behind it is counted with it. -/
theorem Enclosed.cons {α : Type} {IsPart : α → List Char → Prop} {closer : Char} {first : Bool}
    {parts : List α} {before core tail rest : List Char} {a : α}
    (later : Enclosed IsPart closer false parts tail rest) (precedes : Record.Precedes first before)
    (isPart : ∀ space, IsSpacing space → IsPart a (core ++ space)) :
    Enclosed IsPart closer first (a :: parts) (before ++ (core ++ tail)) rest := by
  cases later with
  | nothing isSpacing =>
    have enclosed : Enclosed IsPart closer first [a] _ rest :=
      .parts precedes (.last (isPart _ isSpacing))
    simpa using enclosed
  | parts precedes' separated =>
    cases precedes' with
    | comma isSpacing =>
      have enclosed : Enclosed IsPart closer first (a :: parts) _ rest :=
        .parts precedes (.more (isPart _ isSpacing) separated)
      simpa using enclosed

/-- A value with what stands in front of it between these brackets, and space behind it. -/
inductive IsLabelled (b : Bracket) : List Char → Prop
  | mk {label value after : List Char} (isLabel : IsLabel b label) (isValue : IsValue value)
      (isSpacing : IsSpacing after) : IsLabelled b (label ++ value ++ after)

/-- An element of a list is a value. -/
theorem IsElement.isLabelled {value text : List Char} (isElement : IsElement value text)
    (isValue : IsValue value) : IsLabelled .list text := by
  obtain ⟨before, after⟩ := isElement
  exact .mk (.element before) isValue after

/-- A member of an object is a name and a value. -/
theorem IsMember.isLabelled {m : Member} {text : List Char} (isMember : IsMember m text)
    (isValue : IsValue m.2) : IsLabelled .object text := by
  obtain ⟨before, spells, afterName, beforeValue, after⟩ := isMember
  exact .mk (.member before (isQuotable_of_spells spells) afterName beforeValue) isValue after

/-- Labelled values with commas between them are what the grammar has between brackets. -/
theorem derives_of_separated {α : Type} {IsPart : α → List Char → Prop} {b : Bracket} {as : List α}
    {text : List Char} (separated : Separated IsPart as text)
    (labelled : ∀ a ∈ as, ∀ part, IsPart a part → IsLabelled b part) : Derives (.items b) text := by
  induction separated with
  | last isPart =>
    obtain ⟨isLabel, isValue, isSpacing⟩ := labelled _ List.mem_cons_self _ isPart
    exact .last isLabel isValue isSpacing
  | more isPart _ ih =>
    obtain ⟨here, later⟩ := List.forall_mem_cons.mp labelled
    obtain ⟨isLabel, isValue, isSpacing⟩ := here _ isPart
    exact .more isLabel isValue isSpacing (ih later)

/-- A list or a record in the form of a list ends where a bracket is found. -/
theorem exists_of_nextElement_none {first : Bool} {cs rest : List Char}
    (h : nextElement first cs = .ok (none, rest)) :
    ∃ space, IsSpacing space ∧ cs = space ++ ']' :: rest := by
  rw [nextElement] at h
  split at h
  · cases h
  · next c cs' skipped =>
    split at h
    · next close =>
      cases h
      cases close
      exact exists_of_skipSpace skipped
    split at h
    · cases h
    split at h
    · split at h
      · cases h
      · split at h
        · cases h
        · cases h
    · cases h

/-- Another element begins after a comma, unless it is the first one. -/
theorem exists_of_nextElement_some {first : Bool} {cs text extra : List Char}
    (h : nextElement first cs = .ok (some text, extra)) :
    ∃ before space, Record.Precedes first before ∧ IsSpacing space ∧
      cs = before ++ (space ++ text) := by
  rw [nextElement] at h
  split at h
  · cases h
  · next c cs' skipped =>
    obtain ⟨space, isSpacing, rfl⟩ := exists_of_skipSpace skipped
    split at h
    · cases h
    split at h
    · next begins =>
      cases h
      cases begins
      exact ⟨[], space, .nothing, isSpacing, rfl⟩
    split at h
    · next later comma =>
      split at h
      · cases h
      · next d cs'' skipped' =>
        obtain ⟨space', isSpacing', rfl⟩ := exists_of_skipSpace skipped'
        split at h
        · cases h
        · cases h
          cases comma
          rw [Bool.not_eq_true] at later
          cases later
          exact ⟨space ++ [','], space', .comma isSpacing, isSpacing', by simp⟩
    · cases h

/-! ## Lists -/

section Lists

variable {α : Type} {read : Reader α} {Means : α → List Char → Prop}

/-- An element that means a value, with space around it. -/
def IsItem (Means : α → List Char → Prop) (a : α) (text : List Char) : Prop :=
  ∃ value, Means a value ∧ IsElement value text

/-- The ways to write a list. -/
inductive IsList (Means : α → List Char → Prop) : List α → List Char → Prop
  | empty {space : List Char} (isSpacing : IsSpacing space) :
      IsList Means [] ('[' :: space ++ [']'])
  | full {as : List α} {text : List Char} (separated : Separated (IsItem Means) as text) :
      IsList Means as ('[' :: text ++ [']'])

variable (exact : Exact read Means)
include exact

private theorem enclosed_of_elementsFrom {fuel : Nat} {acc as : List α} {cs rest : List Char}
    (h : elementsFrom read fuel acc cs = .ok (as, rest)) :
    ∃ more, as = acc.reverse ++ more ∧ Enclosed (IsItem Means) ']' acc.isEmpty more cs rest := by
  induction fuel generalizing acc cs with
  | zero => cases h
  | succ fuel ih =>
    rw [elementsFrom] at h
    obtain ⟨⟨next, after⟩, next_eq, h⟩ := exists_of_bind h
    cases next with
    | none =>
      cases h
      obtain ⟨space, isSpacing, rfl⟩ := exists_of_nextElement_none next_eq
      exact ⟨[], by simp, .nothing isSpacing⟩
    | some text =>
      obtain ⟨⟨a, afterElement⟩, reads, later⟩ := exists_of_bind h
      obtain ⟨before, space, precedes, isSpacing, rfl⟩ := exists_of_nextElement_some next_eq
      obtain ⟨space', value, isSpacing', means, rfl⟩ := exact.sound reads
      obtain ⟨more, rfl, enclosed⟩ := ih later
      -- What has been read before stands in front, in the opposite order.
      refine ⟨a :: more, by simp, ?_⟩
      have item (after : List Char) (h : IsSpacing after) :
          IsItem Means a (space ++ space' ++ value ++ after) :=
        ⟨value, means, .mk (isSpacing.append isSpacing') h⟩
      have all := enclosed.cons precedes item
      simpa using all

private theorem elementsFrom_items {as : List α} {text : List Char}
    (separated : Separated (IsItem Means) as text) {fuel : Nat} {acc : List α} {before : List Char}
    (precedes : Record.Precedes acc.isEmpty before) (enough : as.length < fuel) (rest : List Char) :
    elementsFrom read fuel acc (before ++ (text ++ ']' :: rest)) =
      .ok (acc.reverse ++ as, rest) := by
  -- The space behind an element is left to the next step, which finds the comma or the bracket
  -- there.
  induction separated generalizing fuel acc before with
  | last isItem =>
    obtain ⟨value, means, isSpacing, isSpacing'⟩ := isItem
    obtain ⟨fuel, rfl⟩ : ∃ n, fuel = n + 2 := Nat.exists_eq_add_of_le' enough
    simp only [List.append_assoc]
    rw [elementsFrom_of_next
      (Record.nextElement_spacing precedes isSpacing (exact.isValue means) _)
      (exact.complete means isSpacing_nil _)]
    rw [elementsFrom, nextElement, skipSpace_spacing isSpacing', skipSpace_cons (by decide)]
    simp [bind, Except.bind, pure, Except.pure]
  | @more a as text others isItem _ ih =>
    obtain ⟨value, means, isSpacing, isSpacing'⟩ := isItem
    obtain ⟨fuel, rfl⟩ := Nat.exists_eq_add_one_of_ne_zero (Nat.ne_of_gt (Nat.zero_lt_of_lt enough))
    have begun : Record.Precedes (a :: acc).isEmpty _ := .comma isSpacing'
    have later := ih begun (by simpa using enough)
    simp only [List.append_assoc]
    rw [elementsFrom_of_next
      (Record.nextElement_spacing precedes isSpacing (exact.isValue means) _)
      (exact.complete means isSpacing_nil _)]
    simpa using later

private theorem derives_of_items {as : List α} {text : List Char}
    (separated : Separated (IsItem Means) as text) : Derives (.items .list) text := by
  refine derives_of_separated separated fun a _ item => ?_
  rintro ⟨value, means, isElement⟩
  exact isElement.isLabelled (exact.isValue means)

/-- A list is read from the elements that its own reader accepts. -/
theorem exact_list : Exact (list read) (IsList Means) where
  complete := by
    intro as text space means isSpacing rest
    rw [list, skipSpace_spacing isSpacing]
    cases means with
    | empty isSpacing' =>
      rw [List.append_assoc, List.cons_append, skipSpace_cons (by decide)]
      change elementsFrom read _ [] _ = _
      rw [elementsFrom, nextElement, skipSpace_spacing isSpacing']
      rfl
    | full separated =>
      -- There are no more elements than characters, so the reader has turns enough.
      have enough := Record.length_le_of_separated separated
      rw [List.append_assoc, List.cons_append, skipSpace_cons (by decide)]
      have begins : Record.Precedes ([] : List α).isEmpty [] := .nothing
      refine elementsFrom_items exact separated begins ?_ rest
      simp only [List.length_append, List.length_cons]
      omega
  sound := by
    intro cs as rest h
    rw [list] at h
    split at h
    · next opened =>
      obtain ⟨space, isSpacing, rfl⟩ := exists_of_skipSpace opened
      obtain ⟨_, rfl, enclosed⟩ := enclosed_of_elementsFrom exact h
      cases enclosed with
      | nothing isSpacing' => exact ⟨space, _, isSpacing, .empty isSpacing', by simp⟩
      | parts precedes separated =>
        cases precedes
        exact ⟨space, _, isSpacing, .full separated, by simp⟩
    · cases h
  isValue := by
    intro as text means
    cases means with
    | empty isSpacing => exact .empty .list isSpacing
    | full separated => exact .full (derives_of_items exact separated)

end Lists

/-- A text that holds one value has nothing but space around it. -/
theorem document_eq_ok_iff {α : Type} {read : Reader α} {Means : α → List Char → Prop}
    (exact : Exact read Means) (s : String) (a : α) :
    document read s = .ok a ↔
      ∃ before text after, IsSpacing before ∧ Means a text ∧ IsSpacing after ∧
        s.toList = before ++ text ++ after := by
  constructor
  · intro h
    obtain ⟨⟨a, rest⟩, reads, h⟩ := exists_of_bind h
    dsimp only at h
    split at h
    · next ends =>
      cases h
      obtain ⟨before, text, isSpacing, means, whole⟩ := exact.sound reads
      obtain ⟨after, isSpacing', rfl⟩ := exists_of_skipSpace ends
      exact ⟨before, text, after, isSpacing, means, isSpacing', by simpa using whole⟩
    · cases h
  · rintro ⟨before, text, after, isSpacing, means, isSpacing', whole⟩
    -- Nothing is left behind the value.
    have ends : skipSpace after = [] := by
      have skipped : skipSpace (after ++ []) = skipSpace [] := skipSpace_spacing isSpacing'
      rwa [List.append_nil] at skipped
    rw [document, whole, List.append_assoc, exact.complete means isSpacing]
    simp only [bind, Except.bind, ends]
    rfl

end ChatClient.Json
