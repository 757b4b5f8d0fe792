import ChatClient.Json.Record
import ChatClient.Json.Write
import Mathlib.Tactic.Common

/-!
# Reading what was written

A reader *reads* a value from a text if it takes the value from the front of the text and leaves
whatever follows. All readers of this library read what the writers beside them write. For values
that hold others this comes down to the parts. A list is read element by element, and an object
member by member, in whatever order the members are written: what matters is what each of them makes
of the draft.

## Main definitions

* `Reads`: a reader takes a value from the front of a text
* `Fills`: members make a draft into another one

## Main results

* `reads_text`, `reads_textAs`, `nullable_writeNullable`
* `reads_list`, `Record.reads`: from the parts to the whole
* `document_eq`: a text that holds one value
-/

namespace ChatClient.Json

/-- The reader takes the value from the front of the text, whatever follows. The text does not begin
in a way that could be taken for something else. -/
structure Reads {α : Type} (read : Reader α) (a : α) (text : List Char) : Prop where
  read_append : ∀ rest, read (text ++ rest) = .ok (a, rest)
  head : ∃ c cs, text = c :: cs ∧ isSpace c = false ∧ c ≠ ']' ∧ c ≠ 'n'

/-! ## Texts -/

theorem quote_append (s : String) (rest : List Char) :
    quote s ++ rest = '"' :: (quoteBody s.toList ++ '"' :: rest) := by
  simp [quote]

private theorem readQuoted_quote (s : String) (rest : List Char) :
    readQuoted [] (quoteBody s.toList ++ '"' :: rest) = .ok (s.toList, rest) :=
  readQuoted_quoteBody [] s.toList rest

/-- A text begins with a quote, so it is not taken for the end of a list or for a missing value. -/
theorem head_quote (s : String) :
    ∃ c cs, quote s = c :: cs ∧ isSpace c = false ∧ c ≠ ']' ∧ c ≠ 'n' :=
  ⟨'"', _, rfl, by decide, by decide, by decide⟩

/-- A text that was written is read back. -/
theorem reads_text (s : String) : Reads text s (quote s) where
  read_append rest := by
    rw [quote_append, text, skipSpace_cons (by decide)]
    simp only [readQuoted_quote]
    change Except.ok (String.ofList s.toList, rest) = _
    rw [String.ofList_toList]
  head := head_quote s

/-- So is a text that stands for something else. -/
theorem reads_textAs {α : Type} {ofText? : String → Option α} {s : String} {a : α}
    (h : ofText? s = some a) : Reads (textAs ofText?) a (quote s) where
  read_append rest := by
    have read := (reads_text s).read_append rest
    rw [textAs, read]
    simp only [bind, Except.bind, h]
    rfl
  head := head_quote s

/-- What is missing is read from `null`. -/
theorem nullable_null {α : Type} (read : Reader α) (rest : List Char) :
    nullable read (['n', 'u', 'l', 'l'] ++ rest) = .ok (none, rest) := rfl

/-- What does not begin like `null` is read as a value. -/
theorem nullable_cons {α : Type} {read : Reader α} {a : α} {c : Char} {cs rest : List Char}
    (space : isSpace c = false) (null : c ≠ 'n') (reads : read (c :: cs) = .ok (a, rest)) :
    nullable read (c :: cs) = .ok (some a, rest) := by
  rw [nullable, skipSpace_cons space]
  split
  · next rest' same => simp_all
  · rw [reads]
    rfl

/-- A value that was written is read back where it might have been missing. -/
theorem nullable_append {α : Type} {read : Reader α} {a : α} {text : List Char}
    (h : Reads read a text) (rest : List Char) :
    nullable read (text ++ rest) = .ok (some a, rest) := by
  obtain ⟨c, cs, rfl, space, -, null⟩ := h.head
  exact nullable_cons space null (h.read_append rest)

/-- What may be missing is read back, whether it is or not. -/
theorem nullable_writeNullable {α : Type} {read : Reader α} {write : α → List Char} (o : Option α)
    (h : ∀ a, o = some a → Reads read a (write a)) (rest : List Char) :
    nullable read (writeNullable write o ++ rest) = .ok (o, rest) := by
  cases o with
  | none => exact nullable_null read rest
  | some a => exact nullable_append (h a rfl) rest

/-! ## Lists -/

private theorem commaSeparated_cons (item : List Char) (items : List (List Char)) :
    commaSeparated (item :: items) = item ++ items.flatMap fun item => ',' :: item := by
  induction items generalizing item with
  | nil => simp [commaSeparated]
  | cons next items ih => simp [commaSeparated, ih next]

section Lists

variable {α : Type} {read : Reader α} {write : α → List Char}

/-- The next element is the one that is written there. -/
theorem nextElement_append {a : α} {text : List Char} (h : Reads read a text) (rest : List Char) :
    nextElement true (text ++ rest) = .ok (some (text ++ rest), []) ∧
      nextElement false (',' :: (text ++ rest)) = .ok (some (text ++ rest), []) := by
  obtain ⟨c, cs, rfl, space, close, -⟩ := h.head
  rw [List.cons_append]
  constructor
  · rw [nextElement, skipSpace_cons space]
    simp [close]
  · rw [nextElement, skipSpace_cons (by decide)]
    simp [skipSpace_cons space, close]

/-- An element that is read goes to the others, which are kept in reverse. -/
theorem elementsFrom_of_next {fuel : Nat} {acc : List α} {cs text extra rest : List Char} {a : α}
    (next : nextElement acc.isEmpty cs = .ok (some text, extra))
    (reads : read text = .ok (a, rest)) :
    elementsFrom read (fuel + 1) acc cs = elementsFrom read fuel (a :: acc) rest := by
  rw [elementsFrom, next]
  change (read text >>= fun p => elementsFrom read fuel (p.1 :: acc) p.2) = _
  rw [reads]
  rfl

/-- The elements that follow others. -/
theorem elementsFrom_append {xs : List α} (h : ∀ a ∈ xs, Reads read a (write a)) {acc : List α}
    (begun : acc ≠ []) {fuel : Nat} (enough : xs.length < fuel) (rest : List Char) :
    elementsFrom read fuel acc ((xs.flatMap fun a => ',' :: write a) ++ ']' :: rest) =
      .ok (acc.reverse ++ xs, rest) := by
  have later : acc.isEmpty = false := List.isEmpty_eq_false_iff.2 begun
  induction xs generalizing acc fuel with
  | nil =>
    obtain ⟨fuel, rfl⟩ := Nat.exists_eq_add_one_of_ne_zero (Nat.ne_of_gt enough)
    rw [List.append_nil]
    rfl
  | cons a xs ih =>
    obtain ⟨fuel, rfl⟩ := Nat.exists_eq_add_one_of_ne_zero (Nat.ne_of_gt (Nat.zero_lt_of_lt enough))
    have here := h a (by simp)
    simp only [List.flatMap_cons, List.cons_append, List.append_assoc]
    rw [elementsFrom_of_next (by rw [later]; exact (nextElement_append here _).2)
      (here.read_append _)]
    rw [ih (fun b hb => h b (by simp [hb])) (by simp) (by simpa using enough) rfl]
    simp

private theorem length_le_flatMap {xs : List α} {f : α → List Char} (h : ∀ a ∈ xs, f a ≠ []) :
    xs.length ≤ (xs.flatMap f).length := by
  induction xs with
  | nil => simp
  | cons a xs ih =>
    have rest := ih fun b hb => h b (by simp [hb])
    have here := List.length_pos_iff.2 (h a (by simp))
    simp only [List.flatMap_cons, List.length_append, List.length_cons]
    omega

/-- A list is read back if its elements are. -/
theorem reads_list {xs : List α} (h : ∀ a ∈ xs, Reads read a (write a)) :
    Reads (list read) xs (writeList (xs.map write)) where
  read_append rest := by
    have opened : writeList (xs.map write) ++ rest =
        '[' :: (commaSeparated (xs.map write) ++ ']' :: rest) := by simp [writeList]
    rw [opened, list, skipSpace_cons (by decide)]
    change elementsFrom read _ [] _ = _
    cases xs with
    | nil => rfl
    | cons a xs =>
      have here := h a (by simp)
      have enough : xs.length ≤ (xs.flatMap fun a => ',' :: write a).length :=
        length_le_flatMap (by simp)
      simp only [List.map_cons, commaSeparated_cons, List.flatMap_map, List.append_assoc]
      have first (rest : List Char) : nextElement ([] : List α).isEmpty (write a ++ rest) =
          .ok (some (write a ++ rest), []) := (nextElement_append here rest).1
      rw [elementsFrom_of_next (first _) (here.read_append _)]
      rw [elementsFrom_append (fun b hb => h b (by simp [hb])) (by simp) (by
        simp only [List.length_append, List.length_cons]
        omega)]
      rfl
  head := ⟨'[', _, rfl, by decide, by decide, by decide⟩

end Lists

/-! ## Records -/

section Records

variable {δ α : Type}

/-- The members make a draft into another one. Each of them belongs to a field that was not met
before, and the field reads what the member holds. -/
inductive Fills (fields : List (Field δ)) : List String → δ → List Member → δ → Prop
  | nil (seen : List String) (draft : δ) : Fills fields seen draft [] draft
  | cons {seen : List String} {draft draft' draft'' : δ} {name : String} {value : List Char}
      {field : Field δ} {members : List Member}
      (found : fields.find? (fun field => field.name == name) = some field) (fresh : name ∉ seen)
      (reads : ∀ rest, field.read draft (value ++ rest) = .ok (draft', rest))
      (more : Fills fields (name :: seen) draft' members draft'') :
      Fills fields seen draft ((name, value) :: members) draft''

/-- A member whose field reads a value and puts it into the draft. -/
theorem Fills.put {β : Type} {fields : List (Field δ)} {seen : List String} {draft draft' : δ}
    {name : String} {value : List Char} {field : Field δ} {members : List Member} {read : Reader β}
    {b : β} (set : δ → β → δ)
    (found : fields.find? (fun field => field.name == name) = some field)
    (puts : field.read = fun d cs => do
      let (b, cs) ← read cs
      return (set d b, cs))
    (fresh : name ∉ seen) (reads : ∀ rest, read (value ++ rest) = .ok (b, rest))
    (more : Fills fields (name :: seen) (set draft b) members draft') :
    Fills fields seen draft ((name, value) :: members) draft' := by
  refine .cons found fresh (fun rest => ?_) more
  rw [puts]
  change (read (value ++ rest) >>= _) = _
  rw [reads]
  rfl

namespace Record

variable {fields : List (Field δ)} {seen : List String} {draft draft' : δ} {members : List Member}

/-- The members of an object that come after another one, up to its end. -/
def laterMembers (members : List Member) : List Char :=
  members.flatMap fun m => ',' :: writeMember m

/-- A member goes to the field that has its name. -/
theorem membersFrom_of_next {fuel : Nat} {first : Bool} {cs text extra after value rest : List Char}
    {name : String} {field : Field δ} (next : nextMember first cs = .ok (some text, extra))
    (named : memberName text = .ok (name, after)) (colon : expect ':' after = .ok value)
    (found : fields.find? (fun field => field.name == name) = some field) (fresh : name ∉ seen)
    (reads : field.read draft value = .ok (draft', rest)) :
    membersFrom fields (fuel + 1) first seen draft cs =
      membersFrom fields fuel false (name :: seen) draft' rest := by
  rw [membersFrom, next]
  simp only [bind, Except.bind, named, found, if_neg fresh, colon, reads]

private theorem memberName_quoted (name : String) (rest : List Char) :
    memberName (quoteBody name.toList ++ '"' :: rest) = .ok (name, rest) := by
  rw [memberName, readQuoted_quote]
  change Except.ok (String.ofList name.toList, _) = _
  rw [String.ofList_toList]

private theorem writeMember_append (name : String) (value rest : List Char) :
    writeMember (name, value) ++ rest =
      '"' :: (quoteBody name.toList ++ '"' :: ':' :: (value ++ rest)) := by
  simp [writeMember, quote]

private theorem membersFrom_later (fills : Fills fields seen draft members draft') {fuel : Nat}
    (enough : members.length < fuel) (rest : List Char) :
    membersFrom fields fuel false seen draft (laterMembers members ++ '}' :: rest) =
      .ok (draft', rest) := by
  induction fills generalizing fuel with
  | nil =>
    obtain ⟨fuel, rfl⟩ := Nat.exists_eq_add_one_of_ne_zero (Nat.ne_of_gt enough)
    rfl
  | @cons seen draft draft' draft'' name value field members found fresh reads more ih =>
    obtain ⟨fuel, rfl⟩ := Nat.exists_eq_add_one_of_ne_zero (Nat.ne_of_gt (Nat.zero_lt_of_lt enough))
    have next (rest : List Char) : nextMember false (',' :: '"' :: rest) = .ok (some rest, []) :=
      rfl
    rw [laterMembers, List.flatMap_cons, List.cons_append, List.cons_append, List.append_assoc,
      writeMember_append,
      membersFrom_of_next (next _) (memberName_quoted _ _) rfl found fresh (reads _)]
    exact ih (by simpa using enough)

/-- A record is read back from an object whose members fill in its draft, in whatever order they are
written. -/
theorem reads {r : Record δ α} {a : α} (fills : Fills r.fields [] r.blank members draft)
    (finished : r.finish draft = some a) : Reads r.read a (writeObject members) where
  read_append rest := by
    have opened : writeObject members ++ rest =
        '{' :: (commaSeparated (members.map writeMember) ++ '}' :: rest) := by simp [writeObject]
    have filled : membersFrom r.fields
        ((commaSeparated (members.map writeMember) ++ '}' :: rest).length + 1) true [] r.blank
        (commaSeparated (members.map writeMember) ++ '}' :: rest) = .ok (draft, rest) := by
      cases fills with
      | nil => rfl
      | @cons _ _ draft' _ name value field members found fresh reads more =>
        have next (rest : List Char) : nextMember true ('"' :: rest) = .ok (some rest, []) := rfl
        have enough : members.length ≤ (members.flatMap fun m => ',' :: writeMember m).length :=
          length_le_flatMap (by simp)
        simp only [List.map_cons, commaSeparated_cons, List.flatMap_map, List.append_assoc]
        rw [writeMember_append,
          membersFrom_of_next (next _) (memberName_quoted _ _) rfl found fresh (reads _)]
        refine membersFrom_later more ?_ rest
        simp only [List.length_append, List.length_cons]
        omega
    rw [opened, read, skipSpace_cons (by decide)]
    change (membersFrom r.fields _ true [] r.blank _ >>= _) = _
    rw [filled]
    simp only [bind, Except.bind, finished]
  head := ⟨'{', _, rfl, by decide, by decide, by decide⟩

end Record

end Records

/-- A text that holds one value and nothing else. -/
theorem document_eq {α : Type} {read : Reader α} {a : α} {text : List Char}
    (h : Reads read a text) :
    document read (String.ofList text) = .ok a := by
  have whole := h.read_append []
  rw [List.append_nil] at whole
  rw [document, String.toList_ofList, whole]
  rfl

end ChatClient.Json
